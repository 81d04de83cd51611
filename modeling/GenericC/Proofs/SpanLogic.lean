import GenericC.Program.Node
import GenericC.Proofs.GrammarComposition
import GenericC.Proofs.TokenSpans

/-! Assertions about where a rule of the grammar begins and ends. The tokens from a place on stand behind the last token
that was taken, and every step keeps this. So what is built from the tokens between two places lies between them in the
file. -/

namespace GenericC

namespace Span

variable {first second : Span}

theorem contains_iff {outer inner : Span} :
    outer.contains inner = true ↔ outer.file = inner.file ∧ outer.low ≤ inner.low ∧ inner.high ≤ outer.high := by
  simp only [contains, Bool.and_eq_true, decide_eq_true_eq, and_assoc]
  exact Iff.rfl

theorem file_cover : (first.cover second).file = first.file := by
  unfold cover
  split <;> rfl

theorem low_cover (same : first.file = second.file) : (first.cover second).low = min first.low second.low := by
  rw [cover, if_pos same]
  show (if first.start ≤ second.start then first.start else second.start).toNat = min first.start.toNat second.start.toNat
  simp only [UInt32.le_iff_toNat_le]
  split <;> omega

theorem high_cover (same : first.file = second.file) : (first.cover second).high = max first.high second.high := by
  rw [cover, if_pos same]
  show (if first.stop ≤ second.stop then second.stop else first.stop).toNat = max first.stop.toNat second.stop.toNat
  simp only [UInt32.le_iff_toNat_le]
  split <;> omega

end Span

/-- Every node of a tree covers some bytes and lies within its parent. -/
inductive Node.Nested : Node → Prop where
  | node {label : NodeLabel} {children : List Node} (some : label.span.low < label.span.high)
      (inside : ∀ child ∈ children, label.span.contains child.label.span = true)
      (below : ∀ child ∈ children, child.Nested) : Nested (.node label children)

namespace Place

variable {file : UInt32} {size : Nat} {first second third : Place}

/-- The tokens from a place on stand in order behind the last one that was taken. -/
structure Sorted (file : UInt32) (size : Nat) (place : Place) : Prop where
  stands : ∀ token ∈ place.current :: place.upcoming, token.Stands file 0 size
  spaced : Spaced (place.current :: place.upcoming)
  lastFile : place.last.file = file
  last : place.last.high ≤ place.current.span.low
  /-- Offsets are words. -/
  short : size < 4294967296

theorem Sorted.current (sorted : first.Sorted file size) : first.current.Stands file 0 size :=
  sorted.stands _ List.mem_cons_self

theorem Sorted.half (sorted : first.Sorted file size) (double : first.current.kind = .shiftRight) :
    (first.current.span.start + 1).toNat = first.current.span.low + 1 := by
  have inside := sorted.current.inside
  have width := sorted.current.double double
  have short := sorted.short
  rw [UInt32.toNat_add]
  exact Nat.mod_eq_of_lt (show first.current.span.low + 1 < 4294967296 by omega)

theorem Sorted.step (sorted : first.Sorted file size) (step : first.Step second) : second.Sorted file size := by
  have here := sorted.current
  cases step with
  | @take next later more upcoming =>
    have stands := sorted.stands
    have spaced := sorted.spaced
    rw [upcoming] at stands spaced
    obtain ⟨behind, spaced⟩ := List.pairwise_cons.mp spaced
    exact ⟨(List.forall_mem_cons.mp stands).2, spaced, here.file, behind next List.mem_cons_self, sorted.short⟩
  | split double =>
    have half := sorted.half double
    have width := here.double double
    have low : first.current.secondHalf.span.low = first.current.span.low + 1 := half
    have high : first.current.secondHalf.span.high = first.current.span.high := rfl
    obtain ⟨behind, spaced⟩ := List.pairwise_cons.mp sorted.spaced
    refine ⟨List.forall_mem_cons.mpr ⟨⟨here.file, Nat.zero_le _, ?_, ?_, fun _ => ?_, fun other => nomatch other⟩,
      (List.forall_mem_cons.mp sorted.stands).2⟩, List.pairwise_cons.mpr ⟨behind, spaced⟩, here.file, ?_, sorted.short⟩
    · show first.current.secondHalf.span.low ≤ first.current.secondHalf.span.high
      omega
    · exact here.inside
    · show first.current.secondHalf.span.low < first.current.secondHalf.span.high
      omega
    · exact Nat.le_of_eq (half.trans low.symm)

theorem Sorted.reaches (sorted : first.Sorted file size) (reaches : first.Reaches second) : second.Sorted file size :=
  reaches.keeps (·.Sorted file size) (fun step sorted => sorted.step step) sorted

/-- One place is reached from another one in the same file. -/
structure Passes (file : UInt32) (size : Nat) (first second : Place) : Prop where
  start : first.Sorted file size
  reaches : first.Reaches second

namespace Passes

theorem refl (sorted : first.Sorted file size) : first.Passes file size first := ⟨sorted, .refl _⟩

theorem trans (early : first.Passes file size second) (late : second.Passes file size third) :
    first.Passes file size third := ⟨early.start, early.reaches.trans late.reaches⟩

theorem sorted (passes : first.Passes file size second) : second.Sorted file size := passes.start.reaches passes.reaches

theorem taken_le (passes : first.Passes file size second) : first.taken ≤ second.taken := passes.reaches.taken_le

theorem grows (passes : first.Passes file size second) (measure : Place → Nat)
    (step : ∀ {before after : Place}, before.Sorted file size → before.Step after → measure before ≤ measure after) :
    measure first ≤ measure second := by
  obtain ⟨start, reaches⟩ := passes
  induction reaches with
  | refl => exact Nat.le_refl _
  | tail early last ih => exact Nat.le_trans ih (step (start.reaches early) last)

theorem low_le (passes : first.Passes file size second) : first.current.span.low ≤ second.current.span.low := by
  refine passes.grows (·.current.span.low) fun sorted step => ?_
  cases step with
  | take more upcoming => exact Nat.le_trans sorted.current.ordered (sorted.step (.take more upcoming)).last
  | split double => exact Nat.le_trans (Nat.le_succ _) (Nat.le_of_eq (sorted.half double).symm)

theorem high_le (passes : first.Passes file size second) : first.last.high ≤ second.last.high := by
  refine passes.grows (·.last.high) fun sorted step => Nat.le_trans sorted.last ?_
  cases step with
  | take more upcoming => exact sorted.current.ordered
  | split double => exact Nat.le_trans (Nat.le_succ _) (Nat.le_of_eq (sorted.half double).symm)

theorem moved (passes : first.Passes file size second) (taken : first.taken < second.taken) :
    first.current.span.low ≤ second.last.low ∧ second.last.low < second.last.high ∧
      first.current.span.high ≤ second.last.high := by
  obtain ⟨start, reaches⟩ := passes
  induction reaches with
  | refl => exact absurd taken (Nat.lt_irrefl _)
  | @tail middle last early step ih =>
    have behind : first.Passes file size middle := ⟨start, early⟩
    have low := behind.low_le
    have sorted := behind.sorted
    cases step with
    | take more upcoming =>
      refine ⟨low, sorted.current.some more, ?_⟩
      rcases Nat.lt_or_eq_of_le behind.taken_le with before | same
      · exact Nat.le_trans (ih before).2.2 (Nat.le_trans sorted.last sorted.current.ordered)
      · rcases behind.reaches.current_of_taken same.symm with here | ⟨-, half⟩
        · exact Nat.le_of_eq (congrArg (·.span.high) here.symm)
        · exact Nat.le_of_eq (congrArg (·.span.high) half.symm)
    | split double =>
      have half := sorted.half double
      have high := (ih taken).2.2
      have last := sorted.last
      refine ⟨low, ?_, ?_⟩
      · exact Nat.lt_of_lt_of_eq (Nat.lt_succ_self _) half.symm
      · exact Nat.le_trans high (Nat.le_trans last (Nat.le_trans (Nat.le_succ _) (Nat.le_of_eq half.symm)))

end Passes

structure Covers (file : UInt32) (first second : Place) (span : Span) : Prop where
  taken : first.taken < second.taken
  file : span.file = file
  low : first.current.span.low ≤ span.low
  some : span.low < span.high
  high : span.high ≤ second.last.high

theorem Covers.widen {origin last : Place} {span : Span} (covers : first.Covers file second span)
    (early : origin.Passes file size first) (late : second.Passes file size last) : origin.Covers file last span where
  taken := Nat.lt_of_le_of_lt early.taken_le (Nat.lt_of_lt_of_le covers.taken late.taken_le)
  file := covers.file
  low := Nat.le_trans early.low_le covers.low
  some := covers.some
  high := Nat.le_trans covers.high late.high_le

structure Fills (file : UInt32) (first second : Place) (span : Span) : Prop where
  taken : first.taken < second.taken
  file : span.file = file
  low : span.low = first.current.span.low
  high : span.high = second.last.high

theorem Fills.covers {span : Span} (fills : first.Fills file second span) (passes : first.Passes file size second) :
    first.Covers file second span where
  taken := fills.taken
  file := fills.file
  low := Nat.le_of_eq fills.low.symm
  some := by
    obtain ⟨low, some, -⟩ := passes.moved fills.taken
    rw [fills.low, fills.high]
    omega
  high := Nat.le_of_eq fills.high

theorem Fills.contains {outer inner : Span} (fills : first.Fills file second outer)
    (covers : first.Covers file second inner) : outer.contains inner = true :=
  Span.contains_iff.mpr ⟨fills.file.trans covers.file.symm, fills.low ▸ covers.low, fills.high ▸ covers.high⟩

/-- Where a span between two places begins: with the first one. -/
structure Begins (file : UInt32) (first second : Place) (front : Span) : Prop where
  taken : first.taken < second.taken
  file : front.file = file
  low : front.low = first.current.span.low
  high : front.high ≤ second.last.high

/-- Where a span between two places ends: with the last token that was taken. -/
structure Ends (file : UInt32) (first second : Place) (back : Span) : Prop where
  file : back.file = file
  low : first.current.span.low ≤ back.low
  high : back.high = second.last.high

theorem Begins.cover {front back : Span} (begins : first.Begins file second front) (ends : first.Ends file second back) :
    first.Fills file second (front.cover back) := by
  have same : front.file = back.file := begins.file.trans ends.file.symm
  refine ⟨begins.taken, Span.file_cover.trans begins.file, ?_, ?_⟩
  · rw [Span.low_cover same, begins.low, Nat.min_eq_left ends.low]
  · rw [Span.high_cover same, ends.high, Nat.max_eq_right begins.high]

theorem Passes.begins (passes : first.Passes file size second) (taken : first.taken < second.taken) :
    first.Begins file second first.current.span :=
  ⟨taken, passes.start.current.file, rfl, (passes.moved taken).2.2⟩

theorem Passes.ends (passes : first.Passes file size second) (taken : first.taken < second.taken) :
    first.Ends file second second.last :=
  ⟨passes.sorted.lastFile, (passes.moved taken).1, rfl⟩

end Place

namespace Parse

variable {α β : Type} {room : Nat} {file : UInt32} {size : Nat} {place : Place} {good : α → Place → Prop}
variable {code : DiagnosticCode} {message : Text}

/-- Whenever a rule succeeds from a place, it passes to a place where its result is good. -/
def At (file : UInt32) (size : Nat) (place : Place) (rule : Parse α) (good : α → Place → Prop) : Prop :=
  ∀ ⦃state value after⦄, rule state = .ok value after → state.place = place → place.Sorted file size →
    place.Passes file size after.place ∧ good value after.place

structure Took (file : UInt32) (size : Nat) (before after : Place) : Prop extends before.Passes file size after where
  count : after.taken = before.taken + 1
  upcoming : before.upcoming = after.current :: after.upcoming
  last : after.last = before.current.span

theorem Took.taken {before after : Place} (took : Took file size before after) : before.taken < after.taken :=
  Nat.lt_of_lt_of_eq (Nat.lt_succ_self _) took.count.symm

theorem Took.fills {after : Place} (took : Took file size place after) : place.Fills file after place.current.span :=
  ⟨took.taken, took.start.current.file, rfl, congrArg Span.high took.last.symm⟩

theorem Paired.at {view : α → γ} {rule other : Parse α} (paired : Paired true room view rule other) : At file size place rule fun _ _ => True := by
  rintro state value after ended rfl sorted
  exact ⟨⟨sorted, (paired.moved ended).place⟩, trivial⟩

theorem at_of_error {rule : Parse α} (fails : ∀ state, ∃ stop after, rule state = .error stop after) :
    At file size place rule good := by
  intro state value after ended _ _
  obtain ⟨stop, other, failed⟩ := fails state
  rw [failed] at ended
  cases ended

theorem at_throw {stop : Stop} : At file size place (throw stop) good := at_of_error fun state => ⟨stop, state, rfl⟩

theorem at_reported {problem : Diagnostic} : At file size place (report problem >>= fun _ => throw .rejected) good :=
  at_of_error fun state => ⟨.rejected, reported problem state, by
    rw [bind_apply, report_apply]
    rfl⟩

theorem at_reject {span : Span} : At file size place (reject code span message) good :=
  at_reported

theorem at_rejectHere : At file size place (rejectHere code message) good :=
  at_of_error fun state => by
    obtain ⟨span, found⟩ := errorSpan_apply state
    refine ⟨.rejected, reported (.ofError code span message) state, ?_⟩
    unfold rejectHere
    rw [bind_apply, found]
    dsimp only
    unfold reject
    rw [bind_apply, report_apply]
    rfl

namespace At

variable {rule : Parse α} {next : α → Parse β} {last : β → Place → Prop}

theorem mono {better : α → Place → Prop} (holds : At file size place rule better)
    (entails : ∀ value after, place.Passes file size after → better value after → good value after) :
    At file size place rule good := by
  intro state value after ended same sorted
  obtain ⟨passes, result⟩ := holds ended same sorted
  exact ⟨passes, entails value _ passes result⟩

theorem pure {value : α} (holds : good value place) : At file size place (Pure.pure value) good := by
  rintro state _ _ ⟨⟩ rfl sorted
  exact ⟨.refl sorted, holds⟩

theorem bind (early : At file size place rule good)
    (rest : ∀ value middle, place.Passes file size middle → good value middle → At file size middle (next value) last) :
    At file size place (rule >>= next) last := by
  intro state value after ended same sorted
  obtain ⟨found, middle, first, second⟩ := bind_eq_ok.mp ended
  obtain ⟨passes, holds⟩ := early first same sorted
  obtain ⟨later, result⟩ := rest found _ passes holds second rfl passes.sorted
  exact ⟨passes.trans later, result⟩

theorem given {value : α} (rest : At file size place (next value) last) :
    At file size place (Pure.pure value >>= next) last := rest

theorem through (middle : α → Place → Prop) (early : At file size place rule middle)
    (rest : ∀ value behind, place.Passes file size behind → middle value behind → At file size behind (next value) last) :
    At file size place (rule >>= next) last := early.bind rest

/-- A rule of which only the place behind it matters. -/
theorem skip {view : α → γ} (composed : Composed true room view rule)
    (rest : ∀ value middle, place.Passes file size middle → At file size middle (next value) last) :
    At file size place (rule >>= next) last :=
  composed.at.bind fun value middle passes _ => rest value middle passes

theorem never (fails : At file size place rule fun _ _ => False) : At file size place (rule >>= next) last :=
  fails.bind fun _ _ _ none => none.elim

theorem stopIf {test : Prop} [Decidable test] {stop : Parse PUnit} {next : PUnit → Parse β}
    (stops : At file size place stop fun _ _ => False) (rest : ¬ test → At file size place (next ⟨⟩) last) :
    At file size place (if test then stop >>= next else next ⟨⟩) last := by
  split
  · exact .never stops
  next other => exact rest other

theorem map {f : α → β} (holds : At file size place rule fun value after => last (f value) after) :
    At file size place (f <$> rule) last :=
  holds.bind fun _ _ _ result => .pure result

theorem read {next : ParseState → Parse α} (rest : ∀ state, state.place = place → At file size place (next state) good) :
    At file size place (get >>= next) good :=
  fun state _ _ ended same sorted => rest state same ended same sorted

theorem peek {next : Token → Parse α} (rest : At file size place (next place.current) good) :
    At file size place (Parse.peek >>= next) good := by
  rintro state value after ended rfl sorted
  exact rest ended rfl sorted

theorem isAt {kind : TokenKind} {next : Bool → Parse α}
    (yes : place.current.kind = kind → At file size place (next true) good)
    (no : place.current.kind ≠ kind → At file size place (next false) good) :
    At file size place (Parse.isAt kind >>= next) good := by
  rintro state value after ended rfl sorted
  replace ended : next (state.place.current.kind = kind) state = .ok value after := ended
  by_cases here : state.place.current.kind = kind
  · rw [decide_eq_true here] at ended
    exact yes here ended rfl sorted
  · rw [decide_eq_false here] at ended
    exact no here ended rfl sorted

theorem spanFrom {start : Span} {next : Span → Parse α} (rest : At file size place (next (start.cover place.last)) good) :
    At file size place (Parse.spanFrom start >>= next) good := by
  rintro state value after ended rfl sorted
  exact rest ended rfl sorted

theorem peekPast {count : Nat} {next : Token → Parse α} (rest : ∀ token, At file size place (next token) good) :
    At file size place (Parse.peekPast count >>= next) good := by
  have still : At file size place (Parse.peekPast count) fun _ after => after = place := by
    refine .read fun state _ => ?_
    dsimp only
    split <;> exact .pure rfl
  exact still.bind fun token _ _ same => same ▸ rest token

theorem change {change : ParseState → ParseState} (still : ∀ state, (change state).place = state.place)
    {next : PUnit → Parse α} (rest : At file size place (next ⟨⟩) good) :
    At file size place (modify change >>= next) good :=
  fun state _ _ ended same sorted => rest ended ((still state).trans same) sorted

/-- The current token, unless it is the end of the file. -/
theorem token (more : place.current.kind ≠ .endOfFile) :
    At file size place Parse.advance fun token after => token = place.current ∧ Took file size place after := by
  rintro state value after ended rfl sorted
  rw [advance_apply, if_neg more] at ended
  split at ended
  · cases ended
  next upcoming =>
    cases ended
    have passes : state.place.Passes file size _ := ⟨sorted, Place.Step.reaches (.take more upcoming)⟩
    exact ⟨passes, rfl, { passes with count := rfl, upcoming, last := rfl }⟩

theorem advance (more : place.current.kind ≠ .endOfFile) {next : Token → Parse α}
    (rest : ∀ middle, Took file size place middle → At file size middle (next place.current) good) :
    At file size place (Parse.advance >>= next) good :=
  (token more).bind fun _ middle _ ⟨same, took⟩ => same ▸ rest middle took

/-- The current token, whether or not the place moves on. -/
theorem word {next : Token → Parse α}
    (rest : ∀ middle, place.Passes file size middle → At file size middle (next place.current) good) :
    At file size place (Parse.advance >>= next) good := by
  by_cases ended : place.current.kind = .endOfFile
  · have same : At file size place Parse.advance fun token after => token = place.current ∧ after = place := by
      rintro state value after run rfl sorted
      rw [advance_apply, if_pos ended] at run
      cases run
      exact ⟨.refl sorted, rfl, rfl⟩
    exact same.bind fun _ middle passes ⟨found, _⟩ => found ▸ rest middle passes
  · exact .advance ended fun middle took => rest middle took.toPasses

theorem eat {kind : TokenKind} (more : kind ≠ .endOfFile) {next : Bool → Parse α}
    (yes : ∀ middle, place.current.kind = kind → Took file size place middle → At file size middle (next true) good)
    (no : place.current.kind ≠ kind → At file size place (next false) good) :
    At file size place (Parse.eat kind >>= next) good := by
  rintro state value after ended rfl sorted
  rw [bind_apply, eat_apply] at ended
  by_cases here : state.place.current.kind = kind
  · have taken : At file size state.place ((Parse.advance >>= fun _ => Pure.pure true) >>= next) good := by
      refine .through (fun answer middle => answer = true ∧ Took file size state.place middle) ?_ ?_
      · exact .advance (here ▸ more) fun middle took => .pure ⟨rfl, took⟩
      · rintro _ middle - ⟨rfl, took⟩
        exact yes middle here took
    rw [if_pos here, ← bind_apply] at ended
    exact taken ended rfl sorted
  · rw [if_neg here] at ended
    exact no here ended rfl sorted

theorem expect {kind : TokenKind} (more : kind ≠ .endOfFile) {code : DiagnosticCode} {message : Text} {next : Token → Parse α}
    (rest : ∀ middle, place.current.kind = kind → Took file size place middle →
      At file size middle (next place.current) good) :
    At file size place (Parse.expect kind code message >>= next) good := by
  have expected : At file size place (Parse.expect kind code message)
      fun token middle => token = place.current ∧ place.current.kind = kind ∧ Took file size place middle := by
    refine .isAt (fun here => ?_) fun _ => ?_
    · exact (token (here ▸ more)).mono fun found middle _ ⟨same, took⟩ => ⟨same, here, took⟩
    · refine .read fun state _ => .skip (@Paired.errorSpan true 0) fun span middle _ => ?_
      dsimp only
      split
      · exact at_reported
      · exact at_reported
  exact expected.bind fun found middle _ ⟨same, here, took⟩ => same ▸ rest middle here took

theorem expectName {next : Token → Parse α}
    (rest : ∀ middle, Took file size place middle → At file size middle (next place.current) good) :
    At file size place (Parse.expectName message >>= next) good :=
  expect (by nofun) fun middle _ => rest middle

theorem expectSemicolon {owner : Text} {next : Unit → Parse α}
    (rest : ∀ middle, place.current.kind = .semicolon → Took file size place middle → At file size middle (next ()) good) :
    At file size place (Parse.expectSemicolon owner >>= next) good := by
  have expected : At file size place (Parse.expectSemicolon owner)
      fun _ middle => place.current.kind = .semicolon ∧ Took file size place middle :=
    expect (by nofun) fun middle here took => .pure ⟨here, took⟩
  exact expected.bind fun _ middle _ ⟨here, took⟩ => rest middle here took

/-- A trial that fails changes nothing about the place. -/
theorem attempt {next : Option α → Parse β} (trial : At file size place rule good)
    (found : ∀ value middle, place.Passes file size middle → good value middle → At file size middle (next (some value)) last)
    (lost : At file size place (next none) last) : At file size place (Parse.attempt rule >>= next) last := by
  rintro state value after ended rfl sorted
  obtain ⟨outcome, middle, early, late⟩ := bind_eq_ok.mp ended
  unfold Parse.attempt quietly at early
  cases inner : rule { state with quiet := state.quiet + 1 } with
  | ok result behind =>
    rw [inner] at early
    cases early
    obtain ⟨passes, holds⟩ := trial inner rfl sorted
    obtain ⟨later, result⟩ := found result _ passes holds late rfl passes.sorted
    exact ⟨passes.trans later, result⟩
  | error stop behind =>
    rw [inner] at early
    cases stop with
    | rejected =>
      cases early
      exact lost late rfl sorted
    | overrun | underflow | exhausted => cases early

theorem lookahead {rule : Parse Bool} : At file size place (Parse.lookahead rule) fun _ after => after = place := by
  rintro state value after ended rfl sorted
  unfold Parse.lookahead at ended
  split at ended
  · cases ended
    exact ⟨.refl sorted, rfl⟩
  · cases ended
    exact ⟨.refl sorted, rfl⟩
  · cases ended

/-- Behind a rejected rule nothing is known but the place. -/
theorem recover {view : α → γ} {next : Option α → Parse β} (composed : Composed true room view rule) (inner : At file size place rule good)
    (found : ∀ value middle, place.Passes file size middle → good value middle → At file size middle (next (some value)) last)
    (lost : ∀ middle, place.Passes file size middle → At file size middle (next none) last) :
    At file size place (Parse.recover rule >>= next) last := by
  rintro state value after ended rfl sorted
  obtain ⟨outcome, middle, early, late⟩ := bind_eq_ok.mp ended
  have moves := composed.moves state
  unfold Parse.recover at early
  split at early
  next run =>
    cases early
    obtain ⟨passes, holds⟩ := inner run rfl sorted
    obtain ⟨later, result⟩ := found _ _ passes holds late rfl passes.sorted
    exact ⟨passes.trans later, result⟩
  next run =>
    cases early
    rw [run] at moves
    have passes : state.place.Passes file size middle.place := ⟨sorted, moves.place⟩
    obtain ⟨later, result⟩ := lost _ passes late rfl passes.sorted
    exact ⟨passes.trans later, result⟩
  · cases early

theorem nested (inner : At file size place rule good) : At file size place (Parse.nested rule) good := by
  rintro state value after ended rfl sorted
  rw [nested_apply] at ended
  split at ended
  · split at ended <;> cases ended
  · split at ended
    next run =>
      cases ended
      exact (inner run rfl sorted :)
    · cases ended

private theorem dropTypeParams_place {state after : ParseState} (dropped : dropTypeParams state = .ok () after) :
    after.place = state.place := by
  cases scopes : state.typeParams with
  | nil =>
    have fails : dropTypeParams state = .error .underflow state := by
      cases state
      cases scopes
      rfl
    rw [fails] at dropped
    cases dropped
  | cons inner outer =>
    rw [dropTypeParams_apply scopes] at dropped
    cases dropped
    rfl

theorem withTypeParams {names : List Text} (inner : At file size place rule good) :
    At file size place (Parse.withTypeParams names rule) good := by
  rintro state value after ended rfl sorted
  unfold Parse.withTypeParams at ended
  cases run : rule { state with typeParams := names :: state.typeParams } with
  | ok result behind =>
    rw [run] at ended
    obtain ⟨⟨⟩, middle, dropped, kept⟩ := bind_eq_ok.mp ended
    cases kept
    rw [dropTypeParams_place dropped]
    exact inner run rfl sorted
  | error stop behind =>
    rw [run] at ended
    obtain ⟨⟨⟩, middle, dropped, kept⟩ := bind_eq_ok.mp ended
    cases kept

def Behind (goesOn : α → Place → Prop) (ended : β → Place → Prop) : Round α β → Place → Prop
  | .again next => goesOn next
  | .done result => ended result

theorem loop (goesOn : α → Place → Prop) {start : α} {round : α → Parse (Round α β)} (begins : goesOn start place)
    (rounds : ∀ value middle, place.Passes file size middle → goesOn value middle →
      At file size middle (round value) (Behind goesOn last)) : At file size place (Parse.loop start round) last := by
  have within (allowance : List Token) : ∀ value middle, place.Passes file size middle → goesOn value middle →
      At file size middle (loopWithin round allowance value) last := by
    induction allowance with
    | nil => exact fun _ _ _ _ => at_throw
    | cons _ allowance ih =>
      intro value middle passes holds
      refine (rounds value middle passes holds).bind fun result behind further kept => ?_
      cases result with
      | done result => exact .pure kept
      | again next => exact ih next behind (passes.trans further) kept
  rintro state value after ended rfl sorted
  exact within _ start _ (.refl sorted) begins ended rfl sorted

end At

end Parse
end GenericC
