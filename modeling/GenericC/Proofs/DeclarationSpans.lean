import GenericC.Program.SpanCheck
import GenericC.Proofs.NodeSpans
import GenericC.Proofs.ParsedProgram
import GenericC.Proofs.ParserProgress

/-! Where the declarations of a file stand. However broken a file is, the declarations that are read from it stand in
order, each from its first token to the one that closes it, with every node within its parent. If nothing is reported,
then no token is left out but stray semicolons. -/

namespace GenericC

theorem Decl.span_toNode (decl : Decl) : decl.toNode.label.span = decl.span := by
  cases decl with
  | typedef decl =>
    obtain ⟨target, name, dims, loc⟩ := decl
    cases target <;> rfl
  | _ => rfl

theorem Span.contains_trans {first second third : Span} (early : first.contains second = true)
    (late : second.contains third = true) : first.contains third = true := by
  rw [contains_iff] at early late ⊢
  exact ⟨early.1.trans late.1, Nat.le_trans early.2.1 late.2.1, Nat.le_trans late.2.2 early.2.2⟩

theorem Node.Nested.labels {tree : Node} (nested : tree.Nested) :
    ∀ label ∈ tree.labels, tree.label.span.contains label.span = true ∧ label.span.low < label.span.high := by
  induction nested with
  | @node label children some inside below ih =>
    rw [labels_node]
    refine List.forall_mem_cons.mpr ⟨⟨Span.contains_iff.mpr ⟨rfl, Nat.le_refl _, Nat.le_refl _⟩, some⟩, fun inner member => ?_⟩
    obtain ⟨child, isChild, member⟩ := List.mem_flatMap.mp member
    obtain ⟨within, some⟩ := ih child isChild inner member
    exact ⟨Span.contains_trans (inside child isChild) within, some⟩

theorem Span.boundsFault?_eq_none {file size : UInt32} {span : Span} (same : span.file = file)
    (ordered : span.low ≤ span.high) (inside : span.high ≤ size.toNat) : span.boundsFault? file size = none := by
  unfold boundsFault?
  rw [if_neg (show ¬ span.stop < span.start from fun less => Nat.not_lt_of_le ordered (UInt32.lt_iff_toNat_lt.mp less)),
    if_pos]
  exact contains_iff.mpr ⟨same.symm, Nat.zero_le _, inside⟩

structure Decl.Sits (file : UInt32) (size : Nat) (decl : Decl) : Prop where
  file : decl.span.file = file
  nested : decl.toNode.Nested
  inside : decl.span.high ≤ size

namespace Decl

variable {file : UInt32} {size : Nat} {decl : Decl}

theorem Sits.some (sits : decl.Sits file size) : decl.span.low < decl.span.high := by
  have some := sits.nested
  generalize same : decl.toNode = tree at some
  cases some with
  | node some =>
    rw [← span_toNode, same]
    exact some

theorem Sits.mono {more : Nat} (sits : decl.Sits file size) (least : size ≤ more) : decl.Sits file more :=
  { sits with inside := Nat.le_trans sits.inside least }

end Decl

namespace Program

variable {file size : UInt32} {position : Nat} {previous : Option Span}

theorem nodeFault?_eq_none {decl : Decl} (sits : decl.Sits file size.toNat) : nodeFault? file size position decl = none := by
  refine List.findSome?_eq_none_iff.mpr fun label member => ?_
  obtain ⟨within, some⟩ := sits.nested.labels label member
  obtain ⟨same, -, high⟩ := Span.contains_iff.mp within
  rw [Decl.span_toNode] at same high
  rw [Span.boundsFault?_eq_none (same.symm.trans sits.file) (Nat.le_of_lt some) (Nat.le_trans high sits.inside)]
  exact ite_self _

theorem declFault?_eq_none {decl : Decl} (sits : decl.Sits file size.toNat)
    (behind : ∀ before ∈ previous, before.low ≤ decl.span.low) : declFault? file size position previous decl = none := by
  have some := sits.some
  unfold declFault?
  rw [if_neg (show ¬ decl.span.stop ≤ decl.span.start from fun none => Nat.not_lt_of_le (UInt32.le_iff_toNat_le.mp none) some),
    Span.boundsFault?_eq_none sits.file (Nat.le_of_lt some) sits.inside]
  dsimp only
  split
  next before =>
    rw [if_neg, nodeFault?_eq_none sits]
    exact fun less => Nat.not_lt_of_le (behind before rfl) (UInt32.lt_iff_toNat_lt.mp less)
  next => exact nodeFault?_eq_none sits

theorem declsFault?_eq_none {decls : List Decl} (sits : ∀ decl ∈ decls, decl.Sits file size.toNat)
    (apart : decls.Pairwise fun first second => first.span.high ≤ second.span.low)
    (behind : ∀ before ∈ previous, ∀ decl ∈ decls, before.low ≤ decl.span.low) :
    declsFault? file size position previous decls = none := by
  induction decls generalizing position previous with
  | nil => rfl
  | cons decl rest ih =>
    obtain ⟨here, sits⟩ := List.forall_mem_cons.mp sits
    obtain ⟨next, apart⟩ := List.pairwise_cons.mp apart
    rw [declsFault?, declFault?_eq_none here fun before member => behind before member decl List.mem_cons_self]
    refine ih sits apart ?_
    rintro _ ⟨⟩ later member
    exact Nat.le_trans (Nat.le_of_lt here.some) (next later member)

end Program

namespace Place

variable {file : UInt32} {size : Nat} {tokens : List Token} {first second : Place}

theorem Sorted.low_le (sorted : first.Sorted file size) {token : Token} (member : token ∈ first.current :: first.upcoming) :
    first.current.span.low ≤ token.span.low := by
  rcases List.mem_cons.mp member with rfl | member
  · exact Nat.le_refl _
  · exact Nat.le_trans sorted.current.ordered ((List.pairwise_cons.mp sorted.spaced).1 token member)

theorem Passes.behind (passes : first.Passes file size second) (inside : first.In tokens)
    (begins : ∀ token ∈ tokens.take first.taken, token.span.high ≤ first.last.high) :
    ∀ token ∈ tokens.take second.taken, token.span.high ≤ second.last.high := by
  obtain ⟨start, reaches⟩ := passes
  induction reaches with
  | refl => exact begins
  | @tail middle last early step ih =>
    have sorted := start.reaches early
    cases step with
    | take more upcoming =>
      obtain ⟨token, found, here⟩ := (inside.reaches early).current
      have same : token.span.high = middle.current.span.high := by
        rcases here with here | ⟨-, half⟩
        · rw [here]
        · rw [half]
          rfl
      intro other member
      rw [List.take_add_one, found] at member
      rcases List.mem_append.mp member with member | member
      · exact Nat.le_trans (ih other member) (Nat.le_trans sorted.last sorted.current.ordered)
      · cases List.mem_singleton.mp member
        exact Nat.le_of_eq same
    | split double =>
      intro other member
      refine Nat.le_trans (ih other member) (Nat.le_trans sorted.last ?_)
      exact Nat.le_trans (Nat.le_succ _) (Nat.le_of_eq (sorted.half double).symm)

end Place

def Decl.ClosedIn (tokens : List Token) (decl : Decl) : Prop :=
  ∃ token ∈ tokens, token.kind = decl.closer ∧ decl.span.contains token.span = true ∧ token.span.high = decl.span.high

structure Laid (file : UInt32) (tokens : List Token) (size : Nat) (decls : List Decl) : Prop where
  sits : ∀ decl ∈ decls, decl.Sits file size
  closed : ∀ decl ∈ decls, decl.ClosedIn tokens
  apart : decls.Pairwise fun first second => first.span.high ≤ second.span.low

theorem Decl.closer_ne (decl : Decl) : decl.closer ≠ .greater := by
  cases decl with
  | function decl =>
    unfold closer
    dsimp only
    split <;> decide
  | _ => exact nofun

namespace Parse

variable {file : UInt32} {size : Nat} {tokens : List Token} {place first second : Place} {decl : Decl} {decls : List Decl}

theorem Declares.fills (declares : Declares file size first second decl) : first.Fills file second decl.span :=
  decl.span_toNode ▸ declares.builds.span

theorem Declares.passes (declares : Declares file size first second decl) : first.Passes file size second := by
  obtain ⟨closing, passes, -, took⟩ := declares.ends
  exact passes.trans took.toPasses

theorem Declares.closedIn (declares : Declares file size first second decl) (inside : first.In tokens) :
    decl.ClosedIn tokens := by
  obtain ⟨closing, passes, here, took⟩ := declares.ends
  obtain ⟨token, found, same | ⟨-, half⟩⟩ := (inside.reaches passes.reaches).current
  · subst same
    refine ⟨closing.current, List.mem_of_getElem? found, here, declares.fills.contains ?_, ?_⟩
    · exact (took.fills.covers took.toPasses).widen passes (.refl took.sorted)
    · rw [declares.fills.high, took.last]
  · rw [half] at here
    exact absurd here.symm decl.closer_ne

theorem Declares.laid (declares : Declares file size first second decl) (inside : first.In tokens)
    (laid : Laid file tokens first.last.high decls) : Laid file tokens second.last.high (decls ++ [decl]) := by
  have passes := declares.passes
  have fills := declares.fills
  refine ⟨List.forall_mem_append.mpr ⟨fun other member => (laid.sits other member).mono passes.high_le, ?_⟩,
    List.forall_mem_append.mpr ⟨laid.closed, List.forall_mem_singleton.mpr (declares.closedIn inside)⟩,
    List.pairwise_append.mpr ⟨laid.apart, List.pairwise_singleton _ _, fun other member => ?_⟩⟩
  · exact List.forall_mem_singleton.mpr ⟨fills.file, declares.builds.nested, Nat.le_of_eq fills.high⟩
  · refine List.forall_mem_singleton.mpr (Nat.le_trans (laid.sits other member).inside ?_)
    exact fills.low ▸ passes.start.last

theorem decls_at (levels : Nat) (inside : place.In tokens) :
    At file size place (Parse.decls levels) fun decls after => Laid file tokens after.last.high decls := by
  refine .loop (fun decls middle => Laid file tokens middle.last.high decls.reverse)
    ⟨List.forall_mem_nil _, List.forall_mem_nil _, .nil⟩ fun decls middle passes laid => ?_
  have later {last : Place} (further : middle.Passes file size last) : Laid file tokens last.last.high decls.reverse :=
    { laid with sits := fun decl member => (laid.sits decl member).mono further.high_le }
  refine .isAt (fun _ => .read fun _ _ => .pure laid) fun _ => .read fun state _ => ?_
  split
  · exact .pure laid
  · refine .read fun state _ => .recover (topLevel_onward levels).composed (topLevel_at levels) (fun decl last further tops => .pure ?_)
      fun last further => .skip (@skipDecl_composed true 0) fun _ next toNext => .read fun _ _ => ?_
    · cases decl with
      | none => exact later further
      | some decl =>
        show Laid file tokens last.last.high (decl :: decls).reverse
        rw [List.reverse_cons]
        exact tops.laid (inside.reaches passes.reaches) laid
    · dsimp only
      split
      · exact .word fun final toFinal => .pure (later ((further.trans toNext).trans toFinal))
      · exact .pure (later (further.trans toNext))

end Parse

/-- A token lies in just one declaration, or it is a semicolon in none. -/
def Token.Lies (decls : List Decl) (token : Token) : Prop :=
  decls.countP (·.span.contains token.span) = 1 ∨
    (token.kind = .semicolon ∧ decls.countP (·.span.contains token.span) = 0)

namespace Parse

variable {file : UInt32} {size : Nat} {tokens : List Token} {place first second : Place} {decl : Decl} {decls : List Decl}

/-- One round of a file: a declaration, or the rest of a broken one. -/
def declRound (levels : Nat) (decls : List Decl) : Parse (Round (List Decl) (List Decl)) := do
  if (← isAt .endOfFile) || (← get).tooDeep then return .done decls.reverse
  let start := (← get).place.taken
  match ← recover (topLevel levels) with
  | some decl => return .again (decl.toList ++ decls)
  | none =>
    skipDecl
    if (← get).place.taken = start then
      let _ ← advance
    return .again decls

theorem decls_eq (levels : Nat) : Parse.decls levels = loop [] (declRound levels) := rfl

theorem loop_eq_ok {α β : Type} {start : α} {round : α → Parse (Round α β)} {state after : ParseState} {result : β}
    (ended : loop start round state = .ok result after) :
    ∃ value middle, Repeats round start state value middle ∧ round value middle = .ok (.done result) after := by
  have within (allowance : List Token) : ∀ value middle, Repeats round start state value middle →
      loopWithin round allowance value middle = .ok result after →
      ∃ value middle, Repeats round start state value middle ∧ round value middle = .ok (.done result) after := by
    induction allowance with
    | nil => exact fun _ _ _ stopped => nomatch stopped
    | cons _ allowance ih =>
      intro value middle reached ended
      obtain ⟨found, behind, early, late⟩ := bind_eq_ok.mp ended
      cases found with
      | done found =>
        cases late
        exact ⟨value, middle, reached, early⟩
      | again next => exact ih next behind (reached.again early) late
  exact within _ start state .here ended

/-- What was reported while a broken declaration was read is still there behind it. -/
private theorem skipped_steady {start : Nat} {state after : ParseState} {result : Round (List Decl) (List Decl)}
    (spelled : state.Spelled) (ended : (skipDecl >>= fun _ => get >>= fun middle =>
      if middle.place.taken = start then advance >>= fun _ => pure (Round.again decls) else pure (Round.again decls) :
        Parse (Round (List Decl) (List Decl))) state = .ok result after) :
    result = .again decls ∧ Steady .file state after ∧ after.Spelled := by
  have meets : Meets .file Any (skipDecl >>= fun _ => get >>= fun middle =>
      if middle.place.taken = start then advance >>= fun _ => pure (Round.again decls) else pure (Round.again decls) :
        Parse (Round (List Decl) (List Decl))) (· = .again decls) := by
    refine skipDecl_meets.bind fun _ _ => .get fun state => ?_
    split
    · exact .skip fun _ => .pure rfl
    · exact .pure rfl
  have ends := meets state spelled trivial
  rw [ended] at ends
  exact ⟨ends.2.2, ends.1, ends.2.1⟩

/-- A round ends the file, at its end or where it nests too deep. Else it reads a declaration or skips what is broken. -/
theorem declRound_cases {levels : Nat} {round : Round (List Decl) (List Decl)} {state after : ParseState}
    (spelled : state.Spelled) (ended : declRound levels decls state = .ok round after) :
    (round = .done decls.reverse ∧ after = state ∧ (state.place.current.kind = .endOfFile ∨ state.tooDeep = true)) ∨
      ∃ next, round = .again next ∧ Steady .file state after ∧ after.Spelled ∧
        ((∃ decl, topLevel levels state = .ok decl after ∧ next = decl.toList ++ decls) ∨ Spoken state after) := by
  have ends := anyDecl_meets levels state spelled (show Any _ from trivial)
  obtain ⟨eof, _, here, ended⟩ := bind_eq_ok.mp ended
  cases here
  obtain ⟨now, _, here, ended⟩ := bind_eq_ok.mp ended
  cases here
  rw [ite_apply] at ended
  split at ended
  next stops =>
    cases ended
    exact .inl ⟨rfl, rfl, by simpa using stops⟩
  obtain ⟨start, _, here, ended⟩ := bind_eq_ok.mp ended
  cases here
  obtain ⟨found, middle, early, late⟩ := bind_eq_ok.mp ended
  unfold recover at early
  split at early
  next decl behind inner =>
    cases early
    cases late
    rw [inner] at ends
    exact .inr ⟨_, rfl, ends.1, ends.2.1, .inl ⟨decl, inner, rfl⟩⟩
  next behind inner =>
    cases early
    rw [inner] at ends
    obtain ⟨steady, spelled, spoken⟩ := ends
    obtain ⟨rfl, later, spelled⟩ := skipped_steady spelled late
    refine .inr ⟨_, rfl, steady.trans later, spelled, .inr fun hears loud shallow same => ?_⟩
    exact spoken nofun rfl hears loud shallow (steady.split later same).1
  next => cases early

/-- All tokens in front of a place lie in declarations. -/
structure Counted (tokens : List Token) (decls : List Decl) (place : Place) : Prop where
  whole : tokens.drop place.taken = place.current :: place.upcoming
  before : ∀ decl ∈ decls, decl.span.high ≤ place.last.high
  lies : ∀ token ∈ tokens.take place.taken, token.Lies decls

theorem Took.whole (took : Took file size first second) (inside : first.In tokens) :
    tokens.drop second.taken = second.current :: second.upcoming := by
  rw [took.count, ← inside.upcoming, took.upcoming]

theorem Counted.outside (counted : Counted tokens decls first) (sorted : first.Sorted file size) {token : Token}
    (member : token ∈ first.current :: first.upcoming) (more : token.kind ≠ .endOfFile) :
    decls.countP (·.span.contains token.span) = 0 := by
  refine List.countP_eq_zero.mpr fun decl earlier within => ?_
  have some := (sorted.stands token member).some more
  have before := counted.before decl earlier
  have last := sorted.last
  have behind := sorted.low_le member
  have high := (Span.contains_iff.mp within).2.2
  omega

theorem Tops.counted {found : Option Decl} (tops : Tops file size first second found) (origin : place.Passes file size first)
    (inside : place.In tokens) (begins : place.taken = 0) (more : tokens.Pairwise fun first _ => first.kind ≠ .endOfFile)
    (stands : ∀ token ∈ tokens, token.Stands file 0 size)
    (counted : Counted tokens decls first) : Counted tokens (found.toList ++ decls) second := by
  have here : first.In tokens := inside.reaches origin.reaches
  obtain ⟨passes, whole⟩ : first.Passes file size second ∧ tokens.drop second.taken = second.current :: second.upcoming := by
    cases found with
    | none => exact ⟨tops.2.toPasses, tops.2.whole here⟩
    | some decl =>
      obtain ⟨closing, toClosing, -, took⟩ := tops.ends
      exact ⟨toClosing.trans took.toPasses, took.whole (here.reaches toClosing.reaches)⟩
  refine ⟨whole, ?_, fun token member => ?_⟩
  · refine List.forall_mem_append.mpr ⟨fun decl member => ?_, fun decl member => ?_⟩
    · cases Option.mem_toList.mp member
      exact Nat.le_of_eq tops.fills.high
    · exact Nat.le_trans (counted.before decl member) passes.high_le
  have start : ∀ token ∈ tokens.take place.taken, token.span.high ≤ place.last.high := by
    rw [begins]
    exact List.forall_mem_nil _
  have high : token.span.high ≤ second.last.high := (origin.trans passes).behind inside start token member
  have other : token.kind ≠ .endOfFile := by
    rw [← List.take_append_drop second.taken tokens, whole] at more
    exact (List.pairwise_append.mp more).2.2 token member second.current List.mem_cons_self
  rw [← Nat.add_sub_cancel' passes.taken_le, List.take_add, counted.whole] at member
  rcases List.mem_append.mp member with old | new
  · -- An older token keeps its declaration.
    have lies := counted.lies token old
    cases found with
    | none => exact lies
    | some decl =>
      have outside : decl.span.contains token.span = false := by
        refine Bool.eq_false_iff.mpr fun within => ?_
        have some := (stands token (List.mem_of_mem_take old)).some other
        have before := origin.behind inside start token old
        have last := passes.start.last
        have low := tops.fills.low
        have := (Span.contains_iff.mp within).2.1
        omega
      unfold Token.Lies
      rw [Option.toList_some, List.singleton_append, List.countP_cons_of_neg (by rw [outside]; decide)]
      exact lies
  · have fresh := List.mem_of_mem_take new
    have none := counted.outside passes.start fresh other
    cases found with
    | none =>
      have single : second.taken - first.taken = 1 := by
        have := tops.2.count
        omega
      rw [single, List.take_succ_cons, List.take_zero, List.mem_singleton] at new
      exact .inr ⟨new ▸ tops.1, none⟩
    | some decl =>
      have within : decl.span.contains token.span = true := by
        refine Span.contains_iff.mpr ⟨?_, ?_, tops.fills.high ▸ high⟩
        · exact tops.fills.file.trans (passes.start.stands token fresh).file.symm
        · exact tops.fills.low ▸ passes.start.low_le fresh
      unfold Token.Lies
      rw [Option.toList_some, List.singleton_append, List.countP_cons_of_pos (by exact within), none]
      exact .inl rfl

theorem Repeats.invariant {levels : Nat} {holds : List Decl → ParseState → Prop} {state now : ParseState}
    (repeats : Repeats (declRound levels) [] state decls now) (spelled : state.Spelled) (begins : holds [] state)
    (round : ∀ {decls before after found}, holds decls before → before.Spelled → topLevel levels before = .ok found after →
      ¬ Spoken before after → holds (found.toList ++ decls) after) :
    Steady .file state now ∧ now.Spelled ∧ (Spoken state now ∨ holds decls now) := by
  induction repeats with
  | here => exact ⟨.refl _ _, spelled, .inr begins⟩
  | @again _ _ middle after early goesOn ih =>
    obtain ⟨steady, spelled, known⟩ := ih
    obtain ⟨⟨⟩, -⟩ | ⟨_, ⟨⟩, later, spelled', next⟩ := declRound_cases spelled goesOn
    refine ⟨steady.trans later, spelled', ?_⟩
    rcases known with spoken | known
    · exact .inl (spoken.before steady later)
    by_cases spoken : Spoken middle after
    · exact .inl (spoken.after steady later)
    · obtain ⟨decl, found, rfl⟩ := next.resolve_right spoken
      exact .inr (round known spelled found spoken)

end Parse

theorem closeTokens_tokenize (file : UInt32) (content : Text) :
    closeTokens file (tokenize file content).1 = (tokenize file content).1 := by
  obtain ⟨⟨last, found, ended⟩, -⟩ := tokenize_ended file content
  unfold closeTokens
  rw [found]
  exact if_pos ended

theorem ParseState.start_whole (settings : ParseSettings) (file : UInt32) (content : Text) :
    let place := (start settings file (tokenize file content).1).place
    (tokenize file content).1 = place.current :: place.upcoming := by
  obtain ⟨⟨last, found, -⟩, -⟩ := tokenize_ended file content
  unfold start
  rw [closeTokens_tokenize]
  cases same : (tokenize file content).1 with
  | nil =>
    rw [same] at found
    cases found
  | cons first rest => rfl

theorem ParseState.start_sorted (settings : ParseSettings) (file : UInt32) (content : Text)
    (short : content.length < 4294967296) :
    (start settings file (tokenize file content).1).place.Sorted file content.length := by
  obtain ⟨stands, spaced⟩ := tokenize_stands file content short
  rw [start_whole settings file content] at stands spaced
  exact ⟨stands, spaced, rfl, Nat.zero_le _, short⟩

theorem parseFile_eq {settings : ParseSettings} {file : UInt32} {content : Text} {decls : List Decl} {after : ParseState}
    (result : Parse.decls (settings.maxNesting + 1) (.start settings file (tokenize file content).1) = .ok decls after) :
    parseFile settings file content = {
      program := { file, decls }
      reports := (if settings.reporting then (tokenize file content).2 else []) ++ after.reports.reverse } := by
  have parsed : parseTokens settings file (tokenize file content).1 =
      { program := { file, decls }, reports := after.reports.reverse } := by
    unfold parseTokens
    rw [result]
  show { parseTokens settings file (tokenize file content).1 with
    reports := (if settings.reporting then (tokenize file content).2 else []) ++
      (parseTokens settings file (tokenize file content).1).reports } = _
  rw [parsed]

theorem parseFile_laid (settings : ParseSettings) (file : UInt32) (content : Text) (short : content.length < 4294967296) :
    Laid file (tokenize file content).1 content.length (parseFile settings file content).program.decls := by
  obtain ⟨decls, after, result⟩ := ParseState.start_ends settings file (tokenize file content).1
  have inside := ParseState.start_inside settings file (tokenize file content).1
  rw [closeTokens_tokenize] at inside
  obtain ⟨passes, laid⟩ := Parse.decls_at _ inside result rfl (ParseState.start_sorted settings file content short)
  have inside : after.place.last.high ≤ content.length :=
    Nat.le_trans passes.sorted.last (Nat.le_trans passes.sorted.current.ordered passes.sorted.current.inside)
  rw [parseFile_eq result]
  exact { laid with sits := fun decl member => (laid.sits decl member).mono inside }

/-- What every round keeps holds behind the last one, if nothing is reported. Then the file is over. -/
theorem parseFile_clean {settings : ParseSettings} {file : UInt32} {content : Text} (holds : List Decl → ParseState → Prop)
    (hears : (ParseState.start settings file (tokenize file content).1).Hears)
    (clean : (parseFile settings file content).reports = [])
    (begins : holds [] (.start settings file (tokenize file content).1))
    (round : ∀ {decls before after found}, holds decls before → before.Spelled →
      Parse.topLevel (settings.maxNesting + 1) before = .ok found after → ¬ Parse.Spoken before after →
      holds (found.toList ++ decls) after) :
    ∃ decls now, (parseFile settings file content).program.decls = decls.reverse ∧ holds decls now ∧
      now.place.current.kind = .endOfFile ∧ now.place.upcoming = [] := by
  obtain ⟨decls, after, result⟩ := ParseState.start_ends settings file (tokenize file content).1
  have moves := (Parse.decls_composed _).moved result
  obtain ⟨found, now, repeats, ended⟩ := Parse.loop_eq_ok (Parse.decls_eq _ ▸ result)
  obtain ⟨steady, spelled, known⟩ :=
    repeats.invariant (ParseState.start_spelled settings file (tokenize_spelled file content)) begins round
  obtain ⟨⟨⟩, rfl, stops⟩ | ⟨_, ⟨⟩, -⟩ := Parse.declRound_cases spelled ended
  rw [parseFile_eq result] at clean ⊢
  have same : after.reports = [] := List.reverse_eq_nil_iff.mp (List.append_eq_nil_iff.mp clean).2
  have ended : after.place.current.kind = .endOfFile := by
    refine stops.resolve_right fun deep => ?_
    rw [(steady.heard hears same).2] at deep
    cases deep
  refine ⟨found, after, rfl, known.resolve_left fun spoken => spoken hears rfl rfl same, ended, ?_⟩
  -- Only the last token ends a file.
  have more : (after.place.current :: after.place.upcoming).Pairwise fun first _ => first.kind ≠ .endOfFile := by
    refine moves.place.keeps (fun place => (place.current :: place.upcoming).Pairwise fun first _ => first.kind ≠ .endOfFile)
      (fun step more => ?_) ?_
    · cases step with
      | take _ upcoming => exact upcoming ▸ (List.pairwise_cons.mp more).2
      | split double => exact List.pairwise_cons.mpr ⟨nofun, (List.pairwise_cons.mp more).2⟩
    · rw [← ParseState.start_whole settings file content]
      exact (tokenize_ended file content).2
  cases upcoming : after.place.upcoming with
  | nil => rfl
  | cons next later =>
    rw [upcoming] at more
    exact absurd ended ((List.pairwise_cons.mp more).1 next List.mem_cons_self)

/-- If nothing is reported, every token but the end of the file lies in just one declaration or is a stray semicolon. -/
theorem parseFile_lies (settings : ParseSettings) (file : UInt32) (content : Text) (short : content.length < 4294967296)
    (hears : (ParseState.start settings file (tokenize file content).1).Hears)
    (clean : (parseFile settings file content).reports = []) :
    ∀ token ∈ (tokenize file content).1, token.kind ≠ .endOfFile →
      token.Lies (parseFile settings file content).program.decls := by
  have inside := ParseState.start_inside settings file (tokenize file content).1
  rw [closeTokens_tokenize] at inside
  obtain ⟨stands, -⟩ := tokenize_stands file content short
  obtain ⟨decls, now, program, ⟨-, counted⟩, ended, none⟩ := parseFile_clean
    (fun decls now => (ParseState.start settings file (tokenize file content).1).place.Passes file content.length now.place ∧
      Parse.Counted (tokenize file content).1 decls now.place) hears clean
    ⟨.refl (ParseState.start_sorted settings file content short), ParseState.start_whole settings file content,
      List.forall_mem_nil _, List.forall_mem_nil _⟩ fun both _ found _ => by
      obtain ⟨passes, counted⟩ := both
      obtain ⟨further, tops⟩ := Parse.topLevel_at _ found rfl passes.sorted
      exact ⟨passes.trans further, tops.counted passes inside rfl (tokenize_ended file content).2 stands counted⟩
  intro token member other
  rw [program]
  rw [← List.take_append_drop now.place.taken (tokenize file content).1, counted.whole, none] at member
  rcases List.mem_append.mp member with member | member
  · unfold Token.Lies
    rw [List.countP_reverse]
    exact counted.lies token member
  · exact absurd (List.mem_singleton.mp member ▸ ended) other

/-- Whatever the settings of a parse are, and whatever it reports, the spans of its program pass the check, all nodes lie
within their parents, and the declarations stand one behind the other, each with the token that closes it. If the first
report would be kept and there is none, every token lies in just one declaration, but for stray semicolons. -/
theorem declaration_spans_stand (settings : ParseSettings) (file : UInt32) (content : Text)
    (short : content.length < 4294967296) :
    let tokens := (tokenize file content).1
    let parsed := parseFile settings file content
    let decls := parsed.program.decls
    parsed.program.spanFault? file content.length.toUInt32 = none ∧ (∀ decl ∈ decls, decl.toNode.Nested) ∧
      decls.Pairwise (fun first second => first.span.high ≤ second.span.low) ∧ (∀ decl ∈ decls, decl.ClosedIn tokens) ∧
      ((ParseState.start settings file tokens).Hears → parsed.reports = [] →
        ∀ token ∈ tokens, token.kind ≠ .endOfFile → token.Lies decls) := by
  intro tokens parsed decls
  have laid := parseFile_laid settings file content short
  refine ⟨?_, fun decl member => (laid.sits decl member).nested, laid.apart, laid.closed, parseFile_lies settings file content short⟩
  have size : content.length.toUInt32.toNat = content.length := Nat.mod_eq_of_lt short
  have same : parsed.program.file = file := by
    obtain ⟨_, _, result⟩ := ParseState.start_ends settings file tokens
    exact congrArg (·.program.file) (parseFile_eq result)
  unfold Program.spanFault?
  rw [if_neg (not_not_intro same)]
  exact Program.declsFault?_eq_none (size.symm ▸ laid.sits) laid.apart nofun

/-- A parse that reports nothing at all leaves tokens out without a word. -/
theorem silent_parse_leaves_plus :
    let parsed := parseFile { reporting := false } 0 "+"
    let tokens := (tokenize 0 "+").1
    parsed.reports = [] ∧ parsed.program.decls.length = 0 ∧ tokens.map (·.kind) = [.plus, .endOfFile] ∧
      ¬ ∀ token ∈ tokens, token.kind ≠ .endOfFile → token.Lies parsed.program.decls := by
  have clean : (parseFile { reporting := false } 0 "+").reports = [] := by decide +kernel
  have none : (parseFile { reporting := false } 0 "+").program.decls.length = 0 := by decide +kernel
  have kinds : (tokenize 0 "+").1.map (·.kind) = [.plus, .endOfFile] := by decide +kernel
  intro parsed tokens
  refine ⟨clean, none, kinds, fun all => ?_⟩
  obtain ⟨plus, member, kind⟩ := List.mem_map.mp (kinds ▸ List.mem_cons_self : TokenKind.plus ∈ tokens.map (·.kind))
  rw [List.length_eq_zero_iff] at none
  rcases none ▸ all plus member (kind ▸ nofun) with one | ⟨semicolon, -⟩
  · cases one
  · rw [kind] at semicolon
    cases semicolon

def straySemicolon : Text := "struct box \x7b int a, *b; \x7d; ; int f(struct box *p) \x7b return p->a >> 1; \x7d"

theorem straySemicolon_spans :
    let parsed := parseFile {} 0 straySemicolon
    let tokens := (tokenize 0 straySemicolon).1
    straySemicolon.length < 4294967296 ∧ (ParseState.start {} 0 tokens).Hears ∧ parsed.reports = [] ∧
      parsed.program.spanFault? 0 straySemicolon.length.toUInt32 = none ∧
      ∀ token ∈ tokens, token.kind ≠ .endOfFile → token.Lies parsed.program.decls := by
  intro parsed tokens
  have short : straySemicolon.length < 4294967296 := by decide
  have hears : (ParseState.start {} 0 tokens).Hears := ⟨rfl, .inl rfl⟩
  have clean : parsed.reports = [] := by decide +kernel
  obtain ⟨fault, -, -, -, lies⟩ := declaration_spans_stand {} 0 straySemicolon short
  exact ⟨short, hears, clean, fault, lies hears clean⟩

end GenericC
