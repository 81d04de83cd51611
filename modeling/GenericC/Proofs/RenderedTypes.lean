import GenericC.Proofs.TypeReading

/-! A type that is shown can be pasted back into a source: declared as the type of a variable, it is read as the same
type. -/

namespace GenericC
open Lexeme
open Text (byte)
open ParseState (stream_moved)
open Content (mark)

variable {stream later : List Content}

theorem Opens.trans {front middle back rest : List Content} (early : Opens stream front middle)
    (late : Opens middle back rest) : Opens stream (front ++ back) rest := by
  induction early with
  | done => exact late
  | same x _ ih => exact .same x (ih late)
  | half text _ ih => exact .half text (ih late)

theorem Opens.extend {front rest : List Content} (opens : Opens stream front rest) (later : List Content) :
    Opens (stream ++ later) front (rest ++ later) := by
  induction opens with
  | done => exact .done _
  | same x _ ih => exact .same x ih
  | half text _ ih => exact .half text ih

def angles (count : Nat) : Text := List.replicate count (Text.byte '>')

theorem MarkEnd.cons {kind : TokenKind} {b : UInt8} {rest : Text} (ends : kind.joins b = false) : MarkEnd kind (b :: rest) := by
  intro c first
  cases first
  exact ends

section
variable {tail : Text} {rest : List Content}

theorem angles_wordEnd (count : Nat) (ends : WordEnd tail) : WordEnd (angles count ++ tail) := by
  cases count with
  | zero => exact ends
  | succ count => exact .cons (by decide)

theorem angles_apart (count : Nat) (apart : MarkEnd .greater tail) {b : UInt8}
    (first : (angles count ++ tail).head? = some b) : b ≠ byte '=' := by
  cases count with
  | zero =>
    have := apart b first
    simp only [TokenKind.joins, Bool.or_eq_false_iff, decide_eq_false_iff_not] at this
    exact this.2
  | succ count =>
    cases first
    decide

theorem angles_reads (apart : MarkEnd .greater tail) (reads : Reads tail rest) :
    ∀ count, ∃ raw, Reads (angles count ++ tail) raw ∧ Opens raw (List.replicate count (mark .greater)) rest
  | 0 => ⟨rest, reads, .done rest⟩
  | 1 => ⟨mark .greater :: rest, .mark .greater apart reads, .same _ (.done rest)⟩
  | count + 2 => by
    obtain ⟨raw, later, opens⟩ := angles_reads apart reads count
    refine ⟨mark .shiftRight :: raw, .mark .shiftRight ?_ later, .half _ (.same _ opens)⟩
    intro b first
    exact decide_eq_false (angles_apart count apart first)

end

theorem words_reads {words : List Text} (some : words ≠ [])
    (all : ∀ word ∈ words, IsWord word ∧ word.length ≤ Lexer.maxTokenLength) {tail : Text} {rest : List Content}
    (ends : WordEnd tail) (reads : Reads tail rest) :
    Reads (Text.joinWith " " words ++ tail) (words.map Content.ofWord ++ rest) := by
  induction words with
  | nil => exact absurd rfl some
  | cons word words ih =>
    obtain ⟨⟨isWord, short⟩, later⟩ := List.forall_mem_cons.mp all
    cases words with
    | nil =>
      rw [Text.joinWith, List.flatMap_nil, List.append_nil]
      exact .token (Content.ofWord_heads isWord short ends) reads
    | cons next words =>
      have joined : Text.joinWith " " (word :: next :: words) ++ tail =
          word ++ byte ' ' :: (Text.joinWith " " (next :: words) ++ tail) := by
        have joined : Text.joinWith " " (word :: next :: words) = word ++ byte ' ' :: Text.joinWith " " (next :: words) :=
          rfl
        rw [joined, List.append_assoc]
        rfl
      rw [joined]
      refine .token (Content.ofWord_heads isWord short (.cons (by decide))) (.blank (by decide) ?_)
      exact ih (List.cons_ne_nil _ _) later

theorem keyword_short {kind : TokenKind} (keyword : kind.isKeyword = true) :
    kind.spelling.length ≤ Lexer.maxTokenLength := by
  have table : ∀ row ∈ TokenKind.keywords, row.1.spelling.length ≤ 8 := by decide
  obtain ⟨row, member, same⟩ := List.any_eq_true.mp keyword
  obtain rfl : row.1 = kind := of_decide_eq_true same
  exact Nat.le_trans (table row member) (by decide)

theorem Qualifiers.short {front : List Text} (qualifiers : Qualifiers front) :
    ∀ word ∈ front, word.length ≤ Lexer.maxTokenLength := by
  intro word member
  obtain ⟨kind, qualifier, rfl⟩ := qualifiers.2 word member
  exact keyword_short (TokenKind.isKeyword_of_type (.inr (.inl qualifier)))

theorem BaseWords.short {words : List Text} (base : BaseWords words) : ∀ word ∈ words, word.length ≤ Lexer.maxTokenLength := by
  cases base with
  | builtin some builtin =>
    intro word member
    obtain ⟨kind, inside, rfl⟩ := List.mem_map.mp member
    exact keyword_short (TokenKind.isKeyword_of_type (.inl (builtin kind inside)))
  | tagged isTag isName =>
    simpa using ⟨keyword_short (TokenKind.isKeyword_of_type (.inr (.inr isTag))), isName.short⟩
  | name isName => simpa using isName.short

theorem GenericName.typeName {name : Text} (generic : GenericName name) : TypeName name := by
  obtain ⟨front, word, qualified, isName, rfl⟩ := generic
  exact ⟨front, [word], qualified, .name isName, rfl⟩

theorem TypeName.reads {name : Text} (typeName : TypeName name) {tail : Text} {rest : List Content} (ends : WordEnd tail)
    (reads : Reads tail rest) : Reads (name ++ tail) (nameContents name ++ rest) := by
  obtain ⟨front, base, qualified, words, rfl⟩ := typeName
  have some : front ++ base ≠ [] := by simp [words.ne_nil]
  rw [nameContents_joinWith some (List.forall_mem_append.mpr ⟨qualified.isWord, words.isWord⟩)]
  refine words_reads some (List.forall_mem_append.mpr ⟨fun word member => ?_, fun word member => ?_⟩) ends reads
  · exact ⟨qualified.isWord word member, qualified.short word member⟩
  · exact ⟨words.isWord word member, words.short word member⟩

theorem TypeName.start {name : Text} (typeName : TypeName name) : ∃ b rest, name = b :: rest ∧ isNameStart b = true := by
  obtain ⟨front, base, qualified, words, rfl⟩ := typeName
  have all : ∀ word ∈ front ++ base, IsWord word := List.forall_mem_append.mpr ⟨qualified.isWord, words.isWord⟩
  cases whole : front ++ base with
  | nil => exact absurd (List.append_eq_nil_iff.mp whole).2 words.ne_nil
  | cons word later =>
    rw [whole] at all
    obtain ⟨b, rest, rfl, start, -⟩ := all word List.mem_cons_self
    exact ⟨b, _, rfl, start⟩

namespace TypeExpr

theorem render_applied (name : Text) (args : List TypeExpr) (loc : Span) (tail : Text) :
    (applied name args loc).render ++ tail = name ++ byte '<' :: (writeList ", " args ++ byte '>' :: tail) := by
  have less : Text.ofString "<" = [byte '<'] := rfl
  have greater : Text.ofString ">" = [byte '>'] := rfl
  simp [render, write, Text.concat, less, greater]

theorem renderList_cons (first next : TypeExpr) (later : List TypeExpr) (tail : Text) :
    writeList ", " (first :: next :: later) ++ tail =
      first.render ++ byte ',' :: byte ' ' :: (writeList ", " (next :: later) ++ tail) := by
  have comma : Text.ofString ", " = [byte ',', byte ' '] := rfl
  simp [render, writeList, Text.concat, comma]

theorem Written.start {type : TypeExpr} (written : type.Written) :
    ∃ b rest, type.render = b :: rest ∧ isNameStart b = true := by
  cases type with
  | absent => exact written.elim
  | named name loc => exact TypeName.start written
  | applied name args loc =>
    obtain ⟨b, rest, rfl, start⟩ := written.1.typeName.start
    exact ⟨b, _, rfl, start⟩
  | pointer elem loc =>
    obtain ⟨b, rest, same, start⟩ := @Written.start elem written
    refine ⟨b, rest ++ [byte '*'], ?_, start⟩
    rw [render, write, show write ", " elem = b :: rest from same]
    rfl

theorem Written.less_apart {type : TypeExpr} (written : type.Written) (tail : Text) : MarkEnd .less (type.render ++ tail) := by
  obtain ⟨b, rest, same, start⟩ := written.start
  rw [same]
  intro c first
  cases first
  simp only [TokenKind.joins, Bool.or_eq_false_iff, decide_eq_false_iff_not]
  constructor <;> rintro rfl <;> exact absurd start (by decide)

theorem AllWritten.less_apart {types : List TypeExpr} (written : AllWritten types) (some : types ≠ []) (tail : Text) :
    MarkEnd .less (writeList ", " types ++ tail) := by
  match types with
  | [type] => exact written.1.less_apart tail
  | type :: next :: later =>
    rw [renderList_cons]
    exact written.1.less_apart _

mutual
/-- The tokens of a type are read from its text, whatever closing brackets follow it. -/
theorem Written.reads {type : TypeExpr} (written : type.Written) (count : Nat) {tail : Text} {rest : List Content}
    (ends : WordEnd tail) (apart : MarkEnd .greater tail) (reads : Reads tail rest) :
    ∃ raw, Reads (type.render ++ (angles count ++ tail)) raw ∧
      Opens raw (type.contents ++ List.replicate count (mark .greater)) rest := by
  obtain ⟨closing, later, opens⟩ := angles_reads apart reads count
  match type with
  | named name loc =>
    exact ⟨_, TypeName.reads written (angles_wordEnd count ends) later, (Opens.append _ _).trans opens⟩
  | pointer elem loc =>
    have star : Reads (byte '*' :: (angles count ++ tail)) (mark .star :: closing) := by
      refine .mark .star ?_ later
      intro b first
      exact decide_eq_false (angles_apart count apart first)
    obtain ⟨raw, whole, front⟩ := @Written.reads elem written 0 _ _ (.cons (by decide)) (.cons (by decide)) star
    refine ⟨raw, ?_, ?_⟩
    · rw [render, write, List.append_assoc]
      exact whole
    · rw [contents, List.append_assoc]
      rw [List.replicate_zero, List.append_nil] at front
      exact front.trans (.same _ opens)
  | applied name args loc =>
    obtain ⟨generic, some, all⟩ := written
    obtain ⟨raw, inner, front⟩ := AllWritten.reads all some (count + 1) ends apart reads
    have bracket : Reads (byte '<' :: (writeList ", " args ++ (angles (count + 1) ++ tail))) (mark .less :: raw) :=
      .mark .less (AllWritten.less_apart all some _) inner
    refine ⟨nameContents name ++ mark .less :: raw, ?_, ?_⟩
    · rw [render_applied]
      exact generic.typeName.reads (.cons (by decide)) bracket
    · rw [contents, List.append_assoc, List.append_assoc]
      refine (Opens.append _ _).trans (.same _ ?_)
      rw [List.replicate_succ] at front
      exact front

theorem AllWritten.reads {types : List TypeExpr} (written : AllWritten types) (some : types ≠ []) (count : Nat) {tail : Text}
    {rest : List Content} (ends : WordEnd tail) (apart : MarkEnd .greater tail) (reads : Reads tail rest) :
    ∃ raw, Reads (writeList ", " types ++ (angles count ++ tail)) raw ∧
      Opens raw (argsContents types ++ List.replicate count (mark .greater)) rest := by
  match types with
  | [type] => exact written.1.reads count ends apart reads
  | type :: next :: later =>
    obtain ⟨raw, inner, front⟩ := AllWritten.reads written.2 (List.cons_ne_nil _ _) count ends apart reads
    have comma : Reads (byte ',' :: byte ' ' :: (writeList ", " (next :: later) ++ (angles count ++ tail)))
        (mark .comma :: raw) := .mark .comma (fun _ _ => rfl) (.blank (by decide) inner)
    obtain ⟨all, whole, first⟩ := written.1.reads 0 (.cons (by decide)) (.cons (by decide)) comma
    refine ⟨all, ?_, ?_⟩
    · rw [renderList_cons]
      exact whole
    · rw [argsContents, List.append_assoc]
      rw [List.replicate_zero, List.append_nil] at first
      exact first.trans (.same _ front)
end

end TypeExpr

namespace Parse

variable {state : ParseState} {rest : List Content}

theorem storage_none (stops : (headKind state.stream).isStorage = false) :
    Runs storage state fun found after => found = {} ∧ after = state.stream := by
  refine .loop (fun found left => found = {} ∧ left = state.stream) ⟨rfl, rfl⟩ fun found place goesOn => ?_
  obtain ⟨rfl, left⟩ := goesOn
  apply Runs.peek
  have kind : (state.moved place).place.current.kind.isStorage = false := by
    rw [← stops, ← left]
    rfl
  split
  next same => simp [same, TokenKind.isStorage] at kind
  next same => simp [same, TokenKind.isStorage] at kind
  next same => simp [same, TokenKind.isStorage] at kind
  next => exact .pure ⟨rfl, left⟩

theorem declarators_plain (levels : Nat) (type : TypeExpr) (name : Token) (ends : headKind state.stream = .semicolon) :
    Runs (declarators levels type name) state fun found after =>
      (∃ loc, found = [{ type, name := name.text, loc }]) ∧ after = state.stream := by
  refine .loop (fun (carried : TypeExpr × Token × List Declarator) left => carried = (type, name, []) ∧ left = state.stream)
    ⟨rfl, rfl⟩ fun carried place goesOn => ?_
  obtain ⟨rfl, left⟩ := goesOn
  have kind : headKind (state.moved place).stream = .semicolon := by
    rw [stream_moved, left, ends]
  have one : Runs (declarator levels type name) (state.moved place) fun found after =>
      (∃ loc, found = { type, name := name.text, loc }) ∧ after = state.stream := by
    refine .bind (.whileAtNone (by rw [kind]; rfl)) fun dims after none => ?_
    have kind : headKind after.contents = .semicolon := by
      rw [none.2, kind]
    refine .eatNo (by rw [stream_moved, kind]; decide) ?_
    refine .spanFrom fun loc => .pure ⟨⟨loc, ?_⟩, none.2.trans left⟩
    rw [none.1]
  refine one.bind fun found after ran => ?_
  obtain ⟨⟨loc, rfl⟩, same⟩ := ran
  refine .eatNo (by rw [stream_moved, same, ends]; decide) (.pure ⟨⟨loc, rfl⟩, same⟩)

theorem functionOrVars_plain {written : TypeExpr} {name text : Text} (levels : Nat)
    (noStorage : (headKind state.stream).isStorage = false) (reads : ReadsType (typeExpr levels) state written)
    (opens : Opens state.stream written.contents (Content.word name :: (.semicolon, text) :: rest)) (some : rest ≠ []) :
    Runs (functionOrVars levels) state fun decl after =>
      (∃ type loc declared, type.bare = written.bare ∧
        decl = .vars { storage := {}, vars := [{ type, name, loc := declared }], loc }) ∧ after = rest := by
  apply Runs.peek
  refine .bind (storage_none noStorage) fun storage place none => ?_
  have ended : TypeEnd (Content.word name :: (.semicolon, text) :: rest) := .ofKind (List.cons_ne_nil _ _) rfl
  refine .bind (reads place _ (by rw [none.2]; exact opens) ended) fun type after read => ?_
  refine .expect read.2 (by decide) (List.cons_ne_nil _ _) fun token next content onward => ?_
  have kind : headKind next.contents = .semicolon := by rw [onward]; rfl
  refine .isAtNo (by rw [stream_moved, kind]; decide) ?_
  refine .through (fun params after => params = [] ∧ after = next.contents) (.pure ⟨rfl, rfl⟩) fun params further pass => ?_
  have kind : headKind further.contents = .semicolon := by rw [pass.2, kind]
  refine .isAtNo (by rw [stream_moved, kind]; decide) ?_
  refine .bind (declarators_plain levels type token kind) fun vars last ran => ?_
  obtain ⟨⟨declared, rfl⟩, same⟩ := ran
  have onward : last.contents = (.semicolon, text) :: rest := same.trans (pass.2.trans onward)
  have semicolon : Runs (expectSemicolon "declaration") (state.moved last) fun _ after => after = rest :=
    .expect onward (by decide) some fun _ _ _ after => .pure after
  refine semicolon.bind fun _ behind passed => .spanFrom fun loc => .pure ⟨⟨type, loc, declared, read.1, ?_⟩, passed⟩
  rw [none.1, show token.text = name from congrArg Prod.snd content]

end Parse

/-- How a file begins that declares a variable: if with a tag, then a name and no member follows. -/
def BeginsType (stream : List Content) : Prop :=
  ((headKind stream).isTypeKeyword = true ∨ (headKind stream).isQualifier = true ∨ headKind stream = .identifier) ∨
    ∃ tag name later, stream = mark tag :: Content.word name :: later ∧ tag.isTag = true ∧ later ≠ [] ∧
      (headKind later = .star ∨ headKind later = .identifier)

theorem BeginsType.kind (begins : BeginsType stream) :
    (headKind stream).isTypeKeyword = true ∨ (headKind stream).isQualifier = true ∨ (headKind stream).isTag = true ∨
      headKind stream = .identifier := by
  rcases begins with (keyword | qualifier | name) | ⟨tag, name, later, rfl, isTag, -⟩
  · exact .inl keyword
  · exact .inr (.inl qualifier)
  · exact .inr (.inr (.inr name))
  · exact .inr (.inr (.inl isTag))

theorem BeginsType.noStorage (begins : BeginsType stream) : (headKind stream).isStorage = false := by
  have begin := begins.kind
  generalize headKind stream = kind at begin
  cases kind <;> first | rfl | exact absurd begin (by decide)

theorem BeginsType.tagged (begins : BeginsType stream) (isTag : (headKind stream).isTag = true) :
    ∃ x name later, stream = x :: Content.word name :: later ∧ later ≠ [] ∧
      (headKind later = .star ∨ headKind later = .identifier) := by
  rcases begins with others | ⟨tag, name, later, same, -, some, next⟩
  · generalize headKind stream = kind at others isTag
    cases kind <;> first | exact absurd isTag (by decide) | exact absurd others (by decide)
  · exact ⟨_, name, later, same, some, next⟩

theorem Qualifiers.begins {front : List Text} (qualified : Qualifiers front) {rest : List Content} (plain : BeginsType rest) :
    BeginsType (front.map Content.ofWord ++ rest) := by
  cases front with
  | nil => exact plain
  | cons word front => exact .inl (.inr (.inl (qualified.contents _ List.mem_cons_self)))

theorem BaseWords.begins {words : List Text} (base : BaseWords words) (some : later ≠ [])
    (next : headKind later = .star ∨ headKind later = .identifier) :
    BeginsType (words.map Content.ofWord ++ later) := by
  cases base with
  | @builtin kinds someKinds builtin =>
    cases kinds with
    | nil => exact absurd rfl someKinds
    | cons kind kinds =>
      have keyword := builtin kind List.mem_cons_self
      refine .inl (.inl ?_)
      show (Content.ofWord kind.spelling).1.isTypeKeyword = true
      rw [Content.ofWord_spelling (TokenKind.isKeyword_of_type (.inl keyword))]
      exact keyword
  | @tagged tag name isTag isName =>
    refine .inr ⟨tag, name, later, ?_, isTag, some, next⟩
    rw [List.map_cons, List.map_cons, Content.ofWord_spelling (TokenKind.isKeyword_of_type (.inr (.inr isTag))),
      Content.ofWord_name isName]
    rfl
  | @name name isName =>
    refine .inl (.inr (.inr ?_))
    show (Content.ofWord name).1 = .identifier
    rw [Content.ofWord_name isName]
    rfl

theorem TypeExpr.Written.begins {type : TypeExpr} (written : type.Written) {rest : List Content}
    (opens : Opens stream type.contents rest) (name : headKind rest = .identifier) (some : rest ≠ []) :
    BeginsType stream := by
  rw [TypeExpr.contents_base] at opens
  have isBase := written.base
  have noStar := type.pointerDepth_base
  generalize type.base = base at opens isBase noStar
  obtain ⟨middle, early, late⟩ := opens.split
  have next : middle ≠ [] ∧ (headKind middle = .star ∨ headKind middle = .identifier) := by
    generalize type.pointerDepth = count at late
    cases count with
    | zero =>
      cases late
      exact ⟨some, .inr name⟩
    | succ count =>
      cases late with
      | same => exact ⟨List.cons_ne_nil _ _, .inl rfl⟩
  cases base with
  | absent => exact isBase.elim
  | pointer => cases noStar
  | named name loc =>
    obtain ⟨front, base, qualified, words, rfl⟩ := isBase
    rw [contents, nameContents_type qualified words, ← List.map_append] at early
    rw [early.plain (Content.words_ne_bracket _), List.map_append, List.append_assoc]
    exact qualified.begins (words.begins next.1 next.2)
  | applied name args loc =>
    obtain ⟨⟨front, word, qualified, isName, rfl⟩, -⟩ := isBase
    rw [contents, nameContents_generic qualified isName, List.append_assoc, List.append_assoc] at early
    obtain ⟨behind, first, second⟩ := early.split
    rw [first.plain (Content.words_ne_bracket _)]
    refine qualified.begins (.inl (.inr (.inr ?_)))
    cases second with
    | same => rfl

namespace Parse

variable {state : ParseState} {rest : List Content}

theorem atTypeStart_runs (begins : (headKind state.stream).isTypeKeyword = true ∨ (headKind state.stream).isQualifier = true ∨
    (headKind state.stream).isTag = true ∨ headKind state.stream = .identifier) :
    Runs atTypeStart state fun yes after =>
      (yes = true ∨ headKind state.stream = .identifier) ∧ after = state.stream := by
  apply Runs.peek
  split
  · exact .pure ⟨.inl rfl, rfl⟩
  next other =>
    split
    next name => exact .get (.pure ⟨.inr name, rfl⟩)
    next noName =>
      simp only [Bool.or_eq_true, not_or] at other
      rcases begins with keyword | qualifier | tag | name
      · exact absurd keyword other.1.1
      · exact absurd qualifier other.1.2
      · exact absurd tag other.2
      · exact absurd name noName

theorem structAhead_no {tag : TokenKind} {text name : Text} (isTag : tag.isTag = true)
    (stream : state.stream = (tag, text) :: Content.word name :: later) (some : later ≠ [])
    (next : headKind later = .star ∨ headKind later = .identifier) :
    Runs structAhead state fun yes _ => yes = false := by
  have more : tag ≠ .endOfFile := by rintro rfl; cases isTag
  have other {kind : TokenKind} (noStar : kind ≠ .star) (noName : kind ≠ .identifier) : headKind later ≠ kind := by
    rintro rfl
    exact next.elim noStar noName
  refine .advance stream more (List.cons_ne_nil _ _) fun _ first _ onward => ?_
  have kind : headKind first.contents = .identifier := by rw [onward]; rfl
  refine .isAtNo (by rw [stream_moved, kind]; decide) ?_
  refine .eatYes onward (by decide) some fun second onward => ?_
  refine .isAtNo (by rw [stream_moved, onward]; exact other (by decide) (by decide)) ?_
  refine .isAtNo (by rw [stream_moved, onward]; exact other (by decide) (by decide)) ?_
  refine .isAtNo (by rw [stream_moved, onward]; exact other (by decide) (by decide)) ?_
  exact .pure rfl

theorem enumAhead_no {x : Content} {name : Text} (stream : state.stream = x :: Content.word name :: later)
    (some : later ≠ []) (noBrace : headKind later ≠ .leftBrace) :
    Runs enumAhead state fun yes after => yes = false ∧ after = state.stream := by
  obtain ⟨-, tail⟩ := List.cons.inj stream
  cases upcoming : state.place.upcoming with
  | nil => rw [upcoming] at tail; cases tail
  | cons first rest =>
    rw [upcoming] at tail
    obtain ⟨head, tail⟩ := List.cons.inj tail
    cases rest with
    | nil => exact absurd tail.symm some
    | cons second rest =>
      have firstKind : first.kind = .identifier := congrArg Prod.fst head
      have secondKind : second.kind ≠ .leftBrace := by
        rw [← tail] at noBrace
        exact noBrace
      refine ⟨false, state.place, ?_, rfl, rfl⟩
      unfold enumAhead
      rw [bind_apply, peekPast_apply]
      dsimp only
      rw [bind_apply, peekPast_apply, upcoming]
      show EStateM.Result.ok (decide (first.kind = .leftBrace) || decide (first.kind = .identifier) &&
        decide (second.kind = .leftBrace)) _ = .ok false _
      rw [firstKind, decide_eq_false secondKind]
      rfl

theorem otherDecl_runs {post : Decl → List Content → Prop} {levels : Nat}
    (begins : (headKind state.stream).isTypeKeyword = true ∨ (headKind state.stream).isQualifier = true ∨
      (headKind state.stream).isTag = true ∨ headKind state.stream = .identifier)
    (runs : ∀ place, place.contents = state.stream → Runs (functionOrVars levels) (state.moved place) post) :
    Runs (otherDecl levels) state post := by
  apply Runs.peek
  refine .bind (atTypeStart_runs begins) fun yes place start => ?_
  have suits : (yes || state.place.current.kind.isStorage || decide (state.place.current.kind = .identifier)) = true := by
    rcases start.1 with rfl | name
    · rfl
    · rw [decide_eq_true (show state.place.current.kind = .identifier from name), Bool.or_true]
  rw [if_pos suits]
  exact runs place start.2

theorem topLevel_runs {post : Decl → List Content → Prop} {levels : Nat} (begins : BeginsType state.stream)
    (runs : ∀ place, place.contents = state.stream → Runs (functionOrVars levels) (state.moved place) post) :
    Runs (topLevel levels) state fun found rest => ∃ decl, found = some decl ∧ post decl rest := by
  have other (place : Place) (same : place.contents = state.stream) :
      Runs (do return some (← otherDecl levels)) (state.moved place) fun found rest => ∃ decl, found = some decl ∧ post decl rest := by
    have kind := begins.kind
    rw [← same] at kind
    refine .bind (otherDecl_runs kind fun after onward => runs after (onward.trans same)) ?_
    exact fun decl after holds => .pure ⟨decl, rfl, holds⟩
  have noStruct (isTag : (headKind state.stream).isTag = true) :
      Runs (lookahead structAhead) state fun yes rest => yes = false ∧ rest = state.stream := by
    obtain ⟨x, name, later, stream, some, next⟩ := begins.tagged isTag
    refine .lookahead (structAhead_no ?_ stream some next)
    rwa [stream] at isTag
  have kind := begins.kind
  rw [ParseState.headKind_stream] at kind
  apply Runs.peek
  split
  iterate 3
    next same =>
      rw [same] at kind
      exact absurd kind (by decide)
  iterate 2
    next same =>
      refine .bind (noStruct (by rw [ParseState.headKind_stream, same]; rfl)) fun yes place none => ?_
      rw [none.1]
      exact other place none.2
  next same =>
    obtain ⟨x, name, later, stream, some, next⟩ := begins.tagged (by rw [ParseState.headKind_stream, same]; rfl)
    refine .bind (enumAhead_no stream some (by rcases next with next | next <;> rw [next] <;> decide)) fun yes place none => ?_
    rw [none.1]
    exact other place none.2
  next => exact other state.place rfl

theorem decls_runs {post : Decl → Prop} {levels : Nat} (shallow : state.tooDeep = false) (begins : BeginsType state.stream)
    (long : 1 < state.stream.length) (runs : ∀ place, place.contents = state.stream →
      Runs (functionOrVars levels) (state.moved place) fun decl rest => post decl ∧ rest = [(.endOfFile, [])]) :
    Runs (decls levels) state fun found _ => ∃ decl, found = [decl] ∧ post decl := by
  refine .loop (fun found left => (found = [] ∧ left = state.stream) ∨
    (∃ decl, found = [decl] ∧ post decl) ∧ left = [(.endOfFile, [])]) (.inl ⟨rfl, rfl⟩) fun found place goesOn => ?_
  rcases goesOn with ⟨rfl, left⟩ | ⟨⟨decl, rfl, holds⟩, left⟩
  · have more : headKind place.contents ≠ .endOfFile := by
      have kind := begins.kind
      rw [left]
      intro same
      rw [same] at kind
      exact absurd kind (by decide)
    refine .isAtNo more (.get ?_)
    rw [show (state.moved place).tooDeep = false from shallow]
    have first : Runs (topLevel levels) (state.moved place) fun found rest =>
        ∃ decl, found = some decl ∧ post decl ∧ rest = [(.endOfFile, [])] := by
      rw [← left] at begins
      exact topLevel_runs begins fun after onward => runs after (onward.trans left)
    refine .get (first.recover.bind ?_)
    rintro _ after ⟨_, rfl, decl, rfl, holds, ended⟩
    refine .pure ⟨.inr ⟨⟨decl, rfl, holds⟩, ended⟩, ?_⟩
    rw [stream_moved, ended, left]
    exact long
  · refine .isAtYes (by rw [stream_moved, left]; rfl) (.get ?_)
    exact .pure ⟨decl, rfl, holds⟩

end Parse

theorem ParseState.start_stream {settings : ParseSettings} {file : UInt32} {tokens : List Token} {xs : List Content}
    (contents : tokens.map Token.content = xs ++ [(.endOfFile, [])]) :
    (ParseState.start settings file tokens).stream = xs ++ [(.endOfFile, [])] := by
  have last : (tokens.map Token.content).getLast? = some (.endOfFile, []) := by rw [contents]; simp
  rw [List.getLast?_map] at last
  obtain ⟨token, found, content⟩ := Option.map_eq_some_iff.mp last
  have closed : closeTokens file tokens = tokens := by
    unfold closeTokens
    rw [found]
    exact if_pos (congrArg Prod.fst content)
  rw [← contents]
  unfold ParseState.start
  rw [closed]
  cases tokens with
  | nil => cases found
  | cons first rest => rfl

theorem parseFile_declares {settings : ParseSettings} {content name : Text} {raw : List Content} {type : TypeExpr}
    (file : UInt32) (reads : Reads content raw) (written : type.Written) (shallow : type.nesting < settings.maxNesting)
    (opens : Opens raw type.contents [Content.word name, mark .semicolon]) :
    (parseFile settings file content).reports = [] ∧ ∃ found loc declared, found.bare = type.bare ∧
      (parseFile settings file content).program.decls =
        [.vars { storage := {}, vars := [{ type := found, name, loc := declared }], loc }] := by
  obtain ⟨contents, silent⟩ := tokenize_reads file reads
  generalize read : ParseState.start settings file (tokenize file content).1 = state
  have stream : state.stream = raw ++ [(.endOfFile, [])] := by
    rw [← read]
    exact ParseState.start_stream contents
  have whole := opens.extend [(.endOfFile, [])]
  rw [← stream] at whole
  have begins : BeginsType state.stream := written.begins whole rfl (List.cons_ne_nil _ _)
  have long : 1 < state.stream.length := Nat.lt_of_lt_of_le (by simp) whole.length_le
  have room : state.depth + type.nesting < state.settings.maxNesting := by
    rw [← read]
    show 0 + type.nesting < settings.maxNesting
    omega
  have declares (place : Place) (same : place.contents = state.stream) :=
    Parse.functionOrVars_plain (settings.maxNesting + 1) (by rw [stream_moved, same]; exact begins.noStorage)
      (Parse.typeExpr_runs _ (state.moved place) type written (by omega) room) (by rw [stream_moved, same]; exact whole)
      (List.cons_ne_nil _ _)
  obtain ⟨_, place, ran, _, rfl, found, loc, declared, same, rfl⟩ :=
    Parse.decls_runs (by rw [← read]; rfl) begins long declares
  have reports : (state.moved place).reports = [] := by
    rw [← read]
    rfl
  have parsed : parseTokens settings file (tokenize file content).1 =
      { program := { file, decls := [.vars { storage := {}, vars := [{ type := found, name, loc := declared }], loc }] } } := by
    unfold parseTokens
    rw [read, ran]
    dsimp only
    rw [reports]
    rfl
  have whole : parseFile settings file content =
      { parseTokens settings file (tokenize file content).1 with
        reports := (if settings.reporting then (tokenize file content).2 else []) ++
          (parseTokens settings file (tokenize file content).1).reports } := rfl
  rw [whole, parsed, silent]
  exact ⟨by split <;> rfl, found, loc, declared, same, rfl⟩

/-- A type as it is shown, with a name behind it, declares exactly one variable of the same type. -/
theorem rendered_type_declares (settings : ParseSettings) (file : UInt32) (type : TypeExpr) (written : type.Written)
    (shallow : type.nesting < settings.maxNesting) :
    let parsed := parseFile settings file (type.render ++ Text.ofString " x;")
    parsed.reports = [] ∧ ∃ found loc declared, found.same type = true ∧
      parsed.program.decls = [.vars { storage := {}, vars := [{ type := found, name := "x", loc := declared }], loc }] := by
  have isName : IsName (Text.ofString "x") := ⟨⟨Text.byte 'x', [], rfl, by decide, by simp⟩, by decide, by decide⟩
  have name : Reads (Text.ofString " x;") [Content.word "x", mark .semicolon] :=
    .blank (by decide) (.token (isName.heads (.cons (by decide))) (.mark .semicolon (fun _ _ => rfl) .nil))
  have ends : WordEnd (Text.ofString " x;") := .cons (by decide)
  have apart : MarkEnd .greater (Text.ofString " x;") := .cons (by decide)
  obtain ⟨raw, reads, opens⟩ := written.reads 0 ends apart name
  rw [List.replicate_zero, List.append_nil] at opens
  obtain ⟨silent, found, loc, declared, same, decls⟩ := parseFile_declares file reads written shallow opens
  exact ⟨silent, found, loc, declared, (TypeExpr.same_iff_bare found type).mpr same, decls⟩

/-- Closing brackets of nested arguments stand in one token, with stars and qualifiers in between. -/
theorem nested_type_declares :
    let type : TypeExpr := .applied "const Map" [
      .pointer (.applied "Box" [.applied "Box" [.named "unsigned int" .nowhere] .nowhere] .nowhere) .nowhere,
      .applied "Box" [.named "volatile struct S" .nowhere] .nowhere] .nowhere
    type.render = Text.ofString "const Map<Box<Box<unsigned int>>*, Box<volatile struct S>>" ∧ type.Written ∧
      type.nesting < 256 ∧ (parseFile {} 0 (type.render ++ Text.ofString " x;")).reports = [] := by
  intro type
  have none : Qualifiers [] := ⟨List.nodup_nil, by simp⟩
  have one (kind : TokenKind) (qualifier : kind.isQualifier = true) : Qualifiers [kind.spelling] :=
    ⟨by simp, List.forall_mem_singleton.mpr ⟨kind, qualifier, rfl⟩⟩
  have map : IsName (Text.ofString "Map") := ⟨(isWord_iff _).mpr (by decide), by decide, by decide⟩
  have box : IsName (Text.ofString "Box") := ⟨(isWord_iff _).mpr (by decide), by decide, by decide⟩
  have tag : IsName (Text.ofString "S") := ⟨(isWord_iff _).mpr (by decide), by decide, by decide⟩
  have boxed : GenericName "Box" := ⟨[], "Box", none, box, by decide⟩
  have number : TypeName "unsigned int" :=
    ⟨[], _, none, .builtin (List.cons_ne_nil .kwUnsigned [.kwInt]) (by decide), by decide⟩
  have struct : TypeName "volatile struct S" := ⟨_, _, one .kwVolatile rfl, .tagged (show TokenKind.kwStruct.isTag = true from rfl) tag, by decide⟩
  have written : type.Written :=
    ⟨⟨_, "Map", one .kwConst rfl, map, by decide⟩, List.cons_ne_nil _ _,
      ⟨boxed, List.cons_ne_nil _ _, ⟨boxed, List.cons_ne_nil _ _, number, trivial⟩, trivial⟩,
      ⟨boxed, List.cons_ne_nil _ _, struct, trivial⟩, trivial⟩
  exact ⟨by decide, written, by decide, (rendered_type_declares {} 0 type written (by decide)).1⟩

end GenericC
