import GenericC.Proofs.ParsedProgram
import GenericC.Proofs.RuleRuns
import GenericC.Proofs.TextSplits
import GenericC.Proofs.TokenReading

/-! A type that is written out is read again as the same type. Closing brackets of nested type arguments stand in one
token, of which each list of arguments takes its half. -/

namespace GenericC
open Content (mark ofWord)

variable {words : List Text} {name : Text}

def nameContents (name : Text) : List Content := (name.splitByte (Text.byte ' ')).map Content.ofWord

namespace TypeExpr

mutual
def contents : TypeExpr → List Content
  | absent => []
  | named name _ => nameContents name
  | pointer elem _ => elem.contents ++ [mark .star]
  | applied name args _ => nameContents name ++ mark .less :: argsContents args ++ [mark .greater]

def argsContents : List TypeExpr → List Content
  | [] => []
  | [type] => type.contents
  | type :: next :: rest => type.contents ++ mark .comma :: argsContents (next :: rest)
end

mutual
def nesting : TypeExpr → Nat
  | absent => 0
  | named _ _ => 0
  | pointer elem _ => elem.nesting
  | applied _ args _ => argsNesting args + 1

def argsNesting : List TypeExpr → Nat
  | [] => 0
  | type :: rest => max type.nesting (argsNesting rest)
end

theorem contents_base (type : TypeExpr) :
    type.contents = type.base.contents ++ List.replicate type.pointerDepth (mark .star) := by
  match type with
  | absent | named name loc | applied name args loc => simp [base, pointerDepth]
  | pointer elem loc =>
    rw [contents, contents_base elem, base, pointerDepth, List.append_assoc, ← List.replicate_succ']

theorem nesting_base (type : TypeExpr) : type.base.nesting = type.nesting := by
  match type with
  | absent | named name loc | applied name args loc => rfl
  | pointer elem loc =>
    rw [base, nesting]
    exact nesting_base elem

theorem pointerDepth_base (type : TypeExpr) : type.base.pointerDepth = 0 := by
  match type with
  | absent | named name loc | applied name args loc => rfl
  | pointer elem loc => exact pointerDepth_base elem

theorem nesting_le {type : TypeExpr} {types : List TypeExpr} (member : type ∈ types) :
    type.nesting ≤ argsNesting types := by
  induction types with
  | nil => cases member
  | cons first rest ih =>
    rw [argsNesting]
    rcases List.mem_cons.mp member with rfl | member
    · exact Nat.le_max_left _ _
    · exact Nat.le_trans (ih member) (Nat.le_max_right _ _)

end TypeExpr

theorem splitByte_joinWith (some : words ≠ []) (free : ∀ word ∈ words, Text.byte ' ' ∉ word) :
    Text.splitByte (Text.byte ' ') (Text.joinWith " " words) = words := by
  induction words with
  | nil => exact absurd rfl some
  | cons first rest ih =>
    obtain ⟨here, later⟩ := List.forall_mem_cons.mp free
    cases rest with
    | nil =>
      rw [Text.joinWith, List.flatMap_nil, List.append_nil]
      exact Text.splitByte_word here
    | cons next rest =>
      have split := ih (List.cons_ne_nil _ _) later
      have joined : Text.joinWith " " (first :: next :: rest) =
          first ++ Text.byte ' ' :: Text.joinWith " " (next :: rest) := rfl
      rw [joined, Text.splitByte_mark_append, Text.splitByte_word here, split]
      rfl

theorem IsWord.noBlank {word : Text} (isWord : IsWord word) : Text.byte ' ' ∉ word := by
  obtain ⟨b, rest, rfl, start, inside⟩ := isWord
  rintro member
  rcases List.mem_cons.mp member with rfl | member
  · exact absurd start (by decide)
  · exact absurd (inside _ member) (by decide)

theorem nameContents_joinWith (some : words ≠ []) (all : ∀ word ∈ words, IsWord word) :
    nameContents (Text.joinWith " " words) = words.map ofWord := by
  rw [nameContents, splitByte_joinWith some fun word member => (all word member).noBlank]

theorem Content.ofWord_name (isName : IsName name) : ofWord name = Content.word name := by
  rw [ofWord, isName.free]
  rfl

theorem Content.ofWord_spelling {kind : TokenKind} (keyword : kind.isKeyword = true) :
    ofWord kind.spelling = mark kind := by
  have table : ∀ row ∈ TokenKind.keywords, ofWord row.1.spelling = mark row.1 := by decide +kernel
  obtain ⟨row, member, same⟩ := List.any_eq_true.mp keyword
  obtain rfl : row.1 = kind := of_decide_eq_true same
  exact table row member

theorem TokenKind.isKeyword_of_type {kind : TokenKind}
    (inType : kind.isTypeKeyword = true ∨ kind.isQualifier = true ∨ kind.isTag = true) : kind.isKeyword = true := by
  cases kind <;> first | rfl | exact absurd inType (by decide)

theorem Qualifiers.contents {front : List Text} (qualifiers : Qualifiers front) :
    ∀ x ∈ front.map ofWord, x.1.isQualifier = true := by
  intro x member
  obtain ⟨word, inside, rfl⟩ := List.mem_map.mp member
  obtain ⟨kind, qualifier, rfl⟩ := qualifiers.2 word inside
  rw [Content.ofWord_spelling (TokenKind.isKeyword_of_type (.inr (.inl qualifier)))]
  exact qualifier

theorem Qualifiers.isWord {front : List Text} (qualifiers : Qualifiers front) : ∀ word ∈ front, IsWord word :=
  fun word member => (qualifiers.2 word member).isWord

theorem BaseWords.noQualifier (base : BaseWords words) (rest : List Content) :
    (headKind (words.map ofWord ++ rest)).isQualifier = false := by
  cases base with
  | @builtin kinds some builtin =>
    cases kinds with
    | nil => exact absurd rfl some
    | cons kind kinds =>
      have keyword := builtin kind List.mem_cons_self
      show (ofWord kind.spelling).1.isQualifier = false
      rw [Content.ofWord_spelling (TokenKind.isKeyword_of_type (.inl keyword))]
      show kind.isQualifier = false
      cases kind <;> first | rfl | exact absurd keyword (by decide)
  | @tagged tag name isTag isName =>
    show (ofWord tag.spelling).1.isQualifier = false
    rw [Content.ofWord_spelling (TokenKind.isKeyword_of_type (.inr (.inr isTag)))]
    show tag.isQualifier = false
    cases tag <;> first | rfl | exact absurd isTag (by decide)
  | @name name isName =>
    show (ofWord name).1.isQualifier = false
    rw [Content.ofWord_name isName]
    rfl

theorem Content.words_ne_bracket (words : List Text) : ∀ x ∈ words.map ofWord, x.1 ≠ .greater := by
  intro x member
  obtain ⟨word, -, rfl⟩ := List.mem_map.mp member
  exact Content.ofWord_ne rfl (by decide) word

theorem nameContents_type {front base : List Text} (qualified : Qualifiers front) (words : BaseWords base) :
    nameContents (Text.joinWith " " (front ++ base)) = front.map ofWord ++ base.map ofWord := by
  rw [nameContents_joinWith (by simp [words.ne_nil]) (List.forall_mem_append.mpr ⟨qualified.isWord, words.isWord⟩),
    List.map_append]

theorem nameContents_generic {front : List Text} (qualified : Qualifiers front) (isName : IsName name) :
    nameContents (Text.joinWith " " (front ++ [name])) = front.map ofWord ++ [Content.word name] := by
  rw [nameContents_type qualified (.name isName), List.map_singleton, Content.ofWord_name isName]

theorem Content.word_ne_end (name : Text) : (Content.word name).1 ≠ .endOfFile := TokenKind.noConfusion

/-- A stream begins with `front`, and `rest` is left behind it. A double bracket may be taken for two single ones. -/
inductive Opens : (stream front rest : List Content) → Prop
  | done (rest : List Content) : Opens rest [] rest
  | same (x : Content) {stream front rest : List Content} (more : Opens stream front rest) :
      Opens (x :: stream) (x :: front) rest
  | half (text : Text) {stream front rest : List Content} (more : Opens (mark .greater :: stream) front rest) :
      Opens ((.shiftRight, text) :: stream) (mark .greater :: front) rest

namespace Opens

variable {stream front back rest : List Content}

theorem append (front rest : List Content) : Opens (front ++ rest) front rest := by
  induction front with
  | nil => exact .done rest
  | cons x front ih => exact .same x ih

theorem split (opens : Opens stream (front ++ back) rest) :
    ∃ middle, Opens stream front middle ∧ Opens middle back rest := by
  generalize whole : front ++ back = all at opens
  induction opens generalizing front with
  | done rest =>
    obtain ⟨rfl, rfl⟩ := List.append_eq_nil_iff.mp whole
    exact ⟨rest, .done rest, .done rest⟩
  | @same x stream all rest more ih =>
    cases front with
    | nil =>
      rw [show back = x :: all from whole]
      exact ⟨x :: stream, .done _, .same x more⟩
    | cons y front =>
      obtain ⟨rfl, later⟩ := List.cons.inj whole
      obtain ⟨middle, early, late⟩ := ih later
      exact ⟨middle, .same y early, late⟩
  | @half text stream all rest more ih =>
    cases front with
    | nil =>
      rw [show back = mark .greater :: all from whole]
      exact ⟨_, .done _, .half text more⟩
    | cons y front =>
      obtain ⟨rfl, later⟩ := List.cons.inj whole
      obtain ⟨middle, early, late⟩ := ih later
      exact ⟨middle, .half text early, late⟩

theorem plain (opens : Opens stream front rest) (noBracket : ∀ x ∈ front, x.1 ≠ .greater) : stream = front ++ rest := by
  induction opens with
  | done rest => rfl
  | same x more ih => rw [ih (List.forall_mem_cons.mp noBracket).2, List.cons_append]
  | half text more ih => exact absurd rfl ((List.forall_mem_cons.mp noBracket).1)

theorem next {x : Content} (opens : Opens stream (x :: front) rest) (noBracket : x.1 ≠ .greater) :
    ∃ more, stream = x :: more ∧ Opens more front rest := by
  cases opens with
  | same x more => exact ⟨_, rfl, more⟩
  | half => exact absurd rfl noBracket

theorem ne_nil (opens : Opens stream front rest) (some : rest ≠ []) : stream ≠ [] := by
  cases opens with
  | done => exact some
  | same | half => exact List.cons_ne_nil _ _

theorem length_le (opens : Opens stream front rest) : rest.length ≤ stream.length := by
  induction opens with
  | done => exact Nat.le_refl _
  | same x more ih => exact Nat.le_succ_of_le ih
  | half text more ih => exact ih

end Opens

def TokenKind.extendsType (kind : TokenKind) : Bool :=
  kind.isTypeKeyword || kind.isQualifier || kind = .star || kind = .less

/-- What may stand behind a type and in front of its stars. -/
structure BaseEnd (rest : List Content) : Prop where
  some : rest ≠ []
  noKeyword : (headKind rest).isTypeKeyword = false
  noQualifier : (headKind rest).isQualifier = false
  noBracket : headKind rest ≠ .less

structure TypeEnd (rest : List Content) : Prop extends BaseEnd rest where
  noStar : headKind rest ≠ .star

theorem TypeEnd.ofKind {rest : List Content} (some : rest ≠ []) (ends : (headKind rest).extendsType = false) :
    TypeEnd rest := by
  simp only [TokenKind.extendsType, Bool.or_eq_false_iff, decide_eq_false_iff_not] at ends
  obtain ⟨⟨⟨noKeyword, noQualifier⟩, noStar⟩, noBracket⟩ := ends
  exact { some, noKeyword, noQualifier, noBracket, noStar }

theorem TypeEnd.stars {rest : List Content} (ends : TypeEnd rest) (count : Nat) :
    BaseEnd (List.replicate count (mark .star) ++ rest) := by
  cases count with
  | zero => exact ends.toBaseEnd
  | succ count => exact ⟨List.cons_ne_nil _ _, rfl, rfl, TokenKind.noConfusion⟩

namespace Parse

variable {state : ParseState} {type : Parse TypeExpr} {rest : List Content}
variable {args : List TypeExpr}

theorem closeAngle_runs {next : Bool → Parse α} {post : α → List Content → Prop}
    (opens : Opens state.stream [mark .greater] rest) (some : rest ≠ [])
    (runs : ∀ place, place.contents = rest → Runs (next true) (state.moved place) post) :
    Runs (closeAngle >>= next) state post := by
  refine .through (fun yes after => yes = true ∧ after = rest) ?_ fun yes place holds => holds.1 ▸ runs place holds.2
  unfold Runs
  rw [closeAngle_apply]
  generalize found : state.stream = stream at opens
  cases opens with
  | same x more =>
    cases more
    have here : state.place.current.kind = .greater := congrArg Prod.fst (List.cons.inj found).1
    rw [if_pos here]
    have taken : Runs (advance >>= fun _ => pure true) state fun yes after => yes = true ∧ after = rest :=
      .advance found (by decide) some fun _ _ _ after => .pure ⟨rfl, after⟩
    exact taken
  | half text more =>
    cases more
    obtain ⟨head, tail⟩ := List.cons.inj found
    have here : state.place.current.kind = .shiftRight := congrArg Prod.fst head
    rw [if_neg (by rw [here]; decide), if_pos here]
    exact ⟨true, _, rfl, rfl, congrArg (mark .greater :: ·) tail⟩

theorem qualifiers_runs {xs : List Content} (stream : state.stream = xs ++ rest)
    (all : ∀ x ∈ xs, x.1.isQualifier = true) (stops : (headKind rest).isQualifier = false) (some : rest ≠ []) :
    Runs qualifiers state fun words after => words = xs.map Prod.snd ∧ after = rest :=
  .whileAt stream all stops rfl some

theorem qualifiers_none (stops : (headKind state.stream).isQualifier = false) :
    Runs qualifiers state fun words after => words = [] ∧ after = state.stream :=
  qualifiers_runs (show state.stream = [] ++ state.stream from rfl) (by simp) stops (List.cons_ne_nil _ _)

/-- From every place where a type is written, a rule reads it. -/
def ReadsType (type : Parse TypeExpr) (state : ParseState) (written : TypeExpr) : Prop :=
  ∀ place rest, Opens place.contents written.contents rest → TypeEnd rest →
    Runs type (state.moved place) fun found after => found.bare = written.bare ∧ after = rest

theorem typeEnd_of_opens {x : Content} {front stream : List Content} (opens : Opens stream (x :: front) rest)
    (ends : x.1.extendsType = false) : TypeEnd stream := by
  cases opens with
  | same x more => exact .ofKind (List.cons_ne_nil _ _) ends
  | half text more => exact .ofKind (List.cons_ne_nil _ _) rfl

theorem separated_runs (someArgs : args ≠ []) (reads : ∀ arg ∈ args, ReadsType type state arg)
    (opens : Opens state.stream (TypeExpr.argsContents args ++ [mark .greater]) rest) (some : rest ≠ []) :
    Runs (separated type) state fun found after =>
      TypeExpr.bareAll found = TypeExpr.bareAll args ∧ Opens after [mark .greater] rest := by
  refine .loop (fun found left => ∃ done todo, args = done ++ todo ∧ todo ≠ [] ∧
    TypeExpr.bareAll found.reverse = TypeExpr.bareAll done ∧
    Opens left (TypeExpr.argsContents todo ++ [mark .greater]) rest) ⟨[], args, rfl, someArgs, rfl, opens⟩ ?_
  rintro found place ⟨done, todo, rfl, someTodo, same, left⟩
  have both {item arg : TypeExpr} (again : item.bare = arg.bare) :
      TypeExpr.bareAll (item :: found).reverse = TypeExpr.bareAll (done ++ [arg]) := by
    simp only [TypeExpr.bareAll_eq_map, List.reverse_cons, List.map_append, List.map_cons, List.map_nil] at same ⊢
    rw [same, again]
  cases todo with
  | nil => exact absurd rfl someTodo
  | cons arg todo =>
    have read := reads arg (by simp)
    cases todo with
    | nil =>
      obtain ⟨middle, early, late⟩ := left.split
      refine .bind (read place middle early (typeEnd_of_opens late rfl)) fun item after ran => ?_
      have other : headKind after.contents ≠ .comma := by
        rw [ran.2]
        cases late with
        | same | half => exact TokenKind.noConfusion
      refine .eatNo other (.pure ⟨both ran.1, ?_⟩)
      show Opens after.contents _ _
      rw [ran.2]
      exact late
    | cons next todo =>
      rw [TypeExpr.argsContents, List.append_assoc] at left
      obtain ⟨middle, early, late⟩ := left.split
      have ended : TypeEnd middle := typeEnd_of_opens late rfl
      obtain ⟨stream, rfl, more⟩ := late.next (by decide)
      refine .bind (read place _ early ended) fun item after ran => ?_
      refine .eatYes ran.2 (by decide) (more.ne_nil some) fun last onward => .pure ?_
      refine ⟨⟨done ++ [arg], next :: todo, by simp, List.cons_ne_nil _ _, both ran.1, ?_⟩, ?_⟩
      · show Opens last.contents _ _
        rw [onward]
        exact more
      · show last.contents.length < _
        rw [onward]
        exact early.length_le

theorem typeArgs_runs (someArgs : args ≠ []) (reads : ∀ arg ∈ args, ReadsType type state arg)
    (opens : Opens state.stream (mark .less :: TypeExpr.argsContents args ++ [mark .greater]) rest) (some : rest ≠ []) :
    Runs (typeArgs type) state fun found after => TypeExpr.bareAll found = TypeExpr.bareAll args ∧ after = rest := by
  obtain ⟨tokens, stream, more⟩ := opens.next (by decide)
  refine .expect stream (by decide) (more.ne_nil some) fun _ place _ onward => ?_
  rw [← onward] at more
  refine .bind (separated_runs someArgs reads more some) fun found after ran => ?_
  exact closeAngle_runs ran.2 some fun last onward => .pure ⟨ran.1, onward⟩

theorem baseType_words (base : BaseWords words) (stream : state.stream = words.map ofWord ++ rest)
    (ends : BaseEnd rest) :
    Runs (baseType type) state fun found after =>
      found.bare = .named (Text.joinWith " " words) Span.nowhere ∧ after = rest := by
  unfold baseType
  apply Runs.peek
  have kind : state.place.current.kind = headKind (words.map ofWord ++ rest) := by rw [← stream]; rfl
  cases base with
  | @builtin kinds some builtin =>
    have contents : (kinds.map TokenKind.spelling).map ofWord = kinds.map mark := by
      rw [List.map_map]
      refine List.map_congr_left fun kind member => ?_
      exact Content.ofWord_spelling (TokenKind.isKeyword_of_type (.inl (builtin kind member)))
    rw [contents] at stream kind
    have starts : state.place.current.kind.isTypeKeyword = true := by
      cases kinds with
      | nil => exact absurd rfl some
      | cons first later =>
        rw [kind]
        exact builtin first List.mem_cons_self
    rw [if_pos starts]
    refine .bind (.whileAt stream ?_ ends.noKeyword rfl ends.some) fun found after ran => .spanFrom fun span => .pure ⟨?_, ran.2⟩
    · intro x member
      obtain ⟨kind, inside, rfl⟩ := List.mem_map.mp member
      exact builtin kind inside
    · rw [ran.1, List.map_map]
      rfl
  | @tagged tag name isTag isName =>
    have tagged : ofWord tag.spelling = mark tag :=
      Content.ofWord_spelling (TokenKind.isKeyword_of_type (.inr (.inr isTag)))
    rw [List.map_cons, List.map_cons, List.map_nil, tagged, Content.ofWord_name isName] at stream kind
    have here : state.place.current.kind = tag := kind
    have noKeyword : ¬ tag.isTypeKeyword = true := by
      cases tag <;> first | exact absurd isTag (by decide) | decide
    have more : tag ≠ .endOfFile := by rintro rfl; cases isTag
    rw [here, if_neg noKeyword, if_pos isTag]
    refine .advance stream more (by simp) fun token place content onward => ?_
    refine .expect onward (by decide) ends.some fun token' place' content' onward' => ?_
    have other : headKind place'.contents ≠ .less := by
      rw [onward']
      exact ends.noBracket
    refine .isAtNo other (.pure ⟨?_, onward'⟩)
    have first : token.text = tag.spelling := congrArg Prod.snd content
    have second : token'.text = name := congrArg Prod.snd content'
    rw [first, second]
    simp [TypeExpr.bare, Text.joinWith, Text.concat]
  | @name name isName =>
    rw [List.map_cons, List.map_nil, Content.ofWord_name isName] at stream kind
    have here : state.place.current.kind = .identifier := kind
    rw [here, if_neg (by decide), if_neg (by decide), if_pos rfl]
    refine .advance stream (Content.word_ne_end name) ends.some fun token place content onward => ?_
    have other : headKind place.contents ≠ .less := by
      rw [onward]
      exact ends.noBracket
    refine .isAtNo other (.pure ⟨?_, onward⟩)
    rw [show token.text = name from congrArg Prod.snd content]
    simp [TypeExpr.bare, Text.joinWith]

theorem baseType_applied (someArgs : args ≠ []) (reads : ∀ arg ∈ args, ReadsType type state arg)
    (opens : Opens state.stream (Content.word name :: mark .less :: TypeExpr.argsContents args ++ [mark .greater]) rest)
    (some : rest ≠ []) :
    Runs (baseType type) state fun found after =>
      found.bare = .applied name (TypeExpr.bareAll args) Span.nowhere ∧ after = rest := by
  unfold baseType
  apply Runs.peek
  obtain ⟨tokens, stream, inside⟩ := opens.next TokenKind.noConfusion
  have here : state.place.current.kind = .identifier := congrArg Prod.fst (List.cons.inj stream).1
  rw [here, if_neg (by decide), if_neg (by decide), if_pos rfl]
  refine .advance stream (Content.word_ne_end name) (inside.ne_nil some) fun token place content onward => ?_
  rw [← onward] at inside
  have bracket : headKind place.contents = .less := by
    obtain ⟨_, stream, -⟩ := inside.next (by decide)
    rw [stream]
    rfl
  refine .isAtYes bracket ?_
  refine .bind (typeArgs_runs someArgs reads inside some) fun found after ran => .spanFrom fun span => .pure ⟨?_, ran.2⟩
  rw [show token.text = name from congrArg Prod.snd content, TypeExpr.bare, ran.1]

theorem stars_runs {start : Span} {base : TypeExpr} {count : Nat}
    (stream : state.stream = List.replicate count (mark .star) ++ rest) (ends : TypeEnd rest) :
    Runs (stars start base) state fun found after => found.bare = TypeExpr.pointers count base.bare ∧ after = rest := by
  refine .loop (fun type left => ∃ n, left = List.replicate n (mark .star) ++ rest ∧
    TypeExpr.pointers n type.bare = TypeExpr.pointers count base.bare) ⟨count, stream, rfl⟩ ?_
  rintro type place ⟨n, left, same⟩
  cases n with
  | zero =>
    have other : headKind place.contents ≠ .star := by
      rw [left]
      exact ends.noStar
    exact .eatNo other (.pure ⟨same, left⟩)
  | succ n =>
    refine .eatYes left (by decide) (ends.stars n).some fun after onward => ?_
    have stops := (ends.stars n).noQualifier
    rw [← show after.contents = List.replicate n (mark .star) ++ rest from onward] at stops
    refine .bind (qualifiers_none stops) fun words last ran => .spanFrom fun span => .pure ?_
    refine ⟨⟨n, ran.2.trans onward, same⟩, ?_⟩
    show last.contents.length < _
    rw [ran.2, ParseState.stream_moved, onward, left]
    simp [List.replicate_succ]

theorem eraseDups_nodup {α : Type} [BEq α] [LawfulBEq α] {items : List α} (nodup : items.Nodup) : items.eraseDups = items := by
  induction items with
  | nil => rfl
  | cons first rest ih =>
    obtain ⟨new, later⟩ := List.nodup_cons.mp nodup
    have same : rest.filter (fun b => !b == first) = rest := by
      refine List.filter_eq_self.mpr fun b member => ?_
      have : b ≠ first := by rintro rfl; exact new member
      simp [this]
    rw [List.eraseDups_cons, same, ih later]

theorem qualified_name {front base : List Text} (nodup : front.Nodup) (someFront : front ≠ []) (some : base ≠ []) :
    Text.joinWith " " front.eraseDups ++ [Text.byte ' '] ++ Text.joinWith " " base = Text.joinWith " " (front ++ base) := by
  rw [eraseDups_nodup nodup, joinWith_append _ someFront some]
  rfl

theorem qualify_named {front base : List Text} (nodup : front.Nodup) (some : base ≠ []) {found : TypeExpr}
    (named : found.bare = .named (Text.joinWith " " base) Span.nowhere) :
    (qualify front found).bare = .named (Text.joinWith " " (front ++ base)) Span.nowhere := by
  cases found with
  | absent | applied | pointer => cases named
  | named name loc =>
    obtain rfl : name = Text.joinWith " " base := by simpa [TypeExpr.bare] using named
    cases front with
    | nil => rfl
    | cons word front =>
      rw [qualify, if_neg (by simp)]
      simp only [TypeExpr.bare, qualified_name nodup (List.cons_ne_nil _ _) some]

theorem qualify_applied {front : List Text} (nodup : front.Nodup) {found : TypeExpr}
    (applied : found.bare = .applied name args Span.nowhere) :
    (qualify front found).bare = .applied (Text.joinWith " " (front ++ [name])) args Span.nowhere := by
  have single : Text.joinWith " " [name] = name := by simp [Text.joinWith]
  cases found with
  | absent | named | pointer => cases applied
  | applied called types loc =>
    obtain ⟨rfl, rfl⟩ : called = name ∧ TypeExpr.bareAll types = args := by simpa [TypeExpr.bare] using applied
    cases front with
    | nil => rw [List.nil_append, single]; rfl
    | cons word front =>
      have whole := qualified_name nodup (List.cons_ne_nil word front) (List.cons_ne_nil called [])
      rw [single] at whole
      rw [qualify, if_neg (by simp)]
      simp only [TypeExpr.bare, whole]

theorem qualified_runs {base : TypeExpr} {next : TypeExpr → Parse α} {post : α → List Content → Prop}
    (written : base.Written) (noStar : base.pointerDepth = 0)
    (reads : ∀ name args loc, base = .applied name args loc → ∀ arg ∈ args, ReadsType type state arg)
    (opens : Opens state.stream base.contents rest) (ends : BaseEnd rest)
    (runs : ∀ found place, found.bare = base.bare → place.contents = rest → Runs (next found) (state.moved place) post) :
    Runs (do
      let before ← qualifiers
      let base ← baseType type
      let after ← qualifiers
      next (qualify (before ++ after) base)) state post := by
  have texts (words : List Text) : (words.map ofWord).map Prod.snd = words := by
    rw [List.map_map]
    exact List.map_id words
  cases base with
  | absent => exact written.elim
  | pointer elem loc => cases noStar
  | named name loc =>
    obtain ⟨front, base, qualified, words, rfl⟩ := written
    rw [TypeExpr.contents, nameContents_type qualified words, ← List.map_append] at opens
    have stream := opens.plain (Content.words_ne_bracket _)
    rw [List.map_append, List.append_assoc] at stream
    have some : base.map ofWord ++ rest ≠ [] := by simp [ends.some]
    refine .bind (qualifiers_runs stream qualified.contents (words.noQualifier rest) some) fun before place first => ?_
    refine .bind (baseType_words words first.2 ends) fun found after second => ?_
    refine .bind (qualifiers_none (by rw [ParseState.stream_moved, second.2]; exact ends.noQualifier)) fun none last third => ?_
    rw [first.1, third.1, texts, List.append_nil]
    exact runs _ last (qualify_named qualified.1 words.ne_nil second.1) (third.2.trans second.2)
  | applied name args loc =>
    obtain ⟨⟨front, word, qualified, isName, rfl⟩, someArgs, -⟩ := written
    rw [TypeExpr.contents, nameContents_generic qualified isName, List.append_assoc, List.append_assoc] at opens
    obtain ⟨middle, early, late⟩ := opens.split
    have stream := early.plain (Content.words_ne_bracket _)
    have first : (headKind middle).isQualifier = false ∧ middle ≠ [] := by
      cases late with
      | same => exact ⟨rfl, List.cons_ne_nil _ _⟩
    refine .bind (qualifiers_runs stream qualified.contents first.1 first.2) fun before place first => ?_
    have inside : Opens place.contents (Content.word word :: mark .less :: TypeExpr.argsContents args ++ [mark .greater]) rest := by
      rw [first.2]
      exact late
    refine .bind (baseType_applied someArgs (reads _ _ _ rfl) inside ends.some) fun found after second => ?_
    refine .bind (qualifiers_none (by rw [ParseState.stream_moved, second.2]; exact ends.noQualifier)) fun none last third => ?_
    rw [first.1, third.1, texts, List.append_nil]
    exact runs _ last (qualify_applied qualified.1 second.1) (third.2.trans second.2)

theorem typeExpr_runs (levels : Nat) : ∀ (state : ParseState) (written : TypeExpr), written.Written →
    written.nesting < levels → state.depth + written.nesting < state.settings.maxNesting →
    ReadsType (typeExpr levels) state written := by
  induction levels with
  | zero => exact fun _ _ _ deep => absurd deep (Nat.not_lt_zero _)
  | succ levels ih =>
    intro state type written fits shallow place rest opens ends
    rw [TypeExpr.contents_base] at opens
    obtain ⟨middle, early, late⟩ := opens.split
    have stars : middle = List.replicate type.pointerDepth (mark .star) ++ rest := by
      refine late.plain fun x member => ?_
      rw [List.eq_of_mem_replicate member]
      decide
    subst stars
    refine .nested (by show state.depth < state.settings.maxNesting; omega) ?_
    refine .peek (qualified_runs written.base ?_ ?_ early (ends.stars _) fun found place same onward => ?_)
    · exact TypeExpr.pointerDepth_base type
    · intro name args loc same arg member
      have nesting := TypeExpr.nesting_le member
      have whole := TypeExpr.nesting_base type
      have all := written.base
      rw [same] at whole all
      rw [TypeExpr.nesting] at whole
      refine ih _ arg ((TypeExpr.allWritten_iff args).mp all.2.2 arg member) (by omega) ?_
      show state.depth + 1 + arg.nesting < state.settings.maxNesting
      omega
    · refine .mono (stars_runs (by exact onward) ends) fun found' after ran => ⟨?_, ran.2⟩
      rw [ran.1, same]
      have whole := TypeExpr.bare_base 0 type
      rw [Nat.add_zero] at whole
      exact whole.symm

end Parse

end GenericC
