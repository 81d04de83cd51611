import GenericC.Proofs.ParserLogic
import GenericC.Proofs.TokenStreams

/-! Rules that succeed. Where the tokens are as a rule wants them, it reads them, reports nothing and changes nothing but
the place in the file. -/

namespace GenericC

def ParseState.moved (state : ParseState) (place : Place) : ParseState := { state with place }

@[simp] theorem ParseState.stream_moved (state : ParseState) (place : Place) :
    (state.moved place).stream = place.contents := rfl

namespace Parse

variable {α β : Type} {state : ParseState}

/-- A rule succeeds and only moves on. The assertion is about its result and the tokens behind it. -/
def Runs (rule : Parse α) (state : ParseState) (post : α → List Content → Prop) : Prop :=
  ∃ value place, rule state = .ok value (state.moved place) ∧ post value place.contents

namespace Runs

variable {rule : Parse α} {next : α → Parse β} {post mid : α → List Content → Prop} {last : β → List Content → Prop}
variable {kind : TokenKind} {rest : List Content}

theorem mono (runs : Runs rule state mid) (entails : ∀ value rest, mid value rest → post value rest) :
    Runs rule state post := by
  obtain ⟨value, place, ran, holds⟩ := runs
  exact ⟨value, place, ran, entails _ _ holds⟩

theorem pure {value : α} (holds : post value state.stream) : Runs (Pure.pure value) state post :=
  ⟨value, state.place, rfl, holds⟩

theorem bind (runs : Runs rule state mid)
    (rest : ∀ value place, mid value place.contents → Runs (next value) (state.moved place) last) :
    Runs (rule >>= next) state last := by
  obtain ⟨value, place, ran, holds⟩ := runs
  obtain ⟨result, further, goesOn, ends⟩ := rest value place holds
  exact ⟨result, further, by rw [bind_apply, ran]; exact goesOn, ends⟩

theorem through (mid : α → List Content → Prop) (runs : Runs rule state mid)
    (rest : ∀ value place, mid value place.contents → Runs (next value) (state.moved place) last) :
    Runs (rule >>= next) state last := runs.bind rest

theorem peek {next : Token → Parse α} (runs : Runs (next state.place.current) state post) :
    Runs (Parse.peek >>= next) state post := runs

theorem get {next : ParseState → Parse α} (runs : Runs (next state) state post) :
    Runs (MonadState.get >>= next) state post := runs

theorem isAtYes {next : Bool → Parse α} (here : headKind state.stream = kind) (runs : Runs (next true) state post) :
    Runs (Parse.isAt kind >>= next) state post := by
  rw [← decide_eq_true here] at runs
  exact runs

theorem isAtNo {next : Bool → Parse α} (other : headKind state.stream ≠ kind) (runs : Runs (next false) state post) :
    Runs (Parse.isAt kind >>= next) state post := by
  rw [← decide_eq_false other] at runs
  exact runs

theorem spanFrom {start : Span} {next : Span → Parse α} (runs : ∀ span, Runs (next span) state post) :
    Runs (Parse.spanFrom start >>= next) state post := runs (start.cover state.place.last)

theorem advance {x : Content} {next : Token → Parse α} (stream : state.stream = x :: rest) (more : x.1 ≠ .endOfFile)
    (some : rest ≠ [])
    (runs : ∀ token place, token.content = x → place.contents = rest → Runs (next token) (state.moved place) post) :
    Runs (Parse.advance >>= next) state post := by
  obtain ⟨head, tail⟩ := List.cons.inj stream
  refine through (fun token after => token.content = x ∧ after = rest) ?_ fun token place holds =>
    runs token place holds.1 holds.2
  have kind : state.place.current.kind ≠ .endOfFile := fun same => more (by rw [← head]; exact same)
  unfold Runs
  rw [advance_apply, if_neg kind]
  cases upcoming : state.place.upcoming with
  | nil =>
    rw [upcoming] at tail
    exact absurd tail.symm some
  | cons following later =>
    rw [upcoming] at tail
    exact ⟨_, _, rfl, head, tail⟩

theorem eatYes {text : Text} {next : Bool → Parse α} (stream : state.stream = (kind, text) :: rest)
    (more : kind ≠ .endOfFile) (some : rest ≠ [])
    (runs : ∀ place, place.contents = rest → Runs (next true) (state.moved place) post) :
    Runs (Parse.eat kind >>= next) state post := by
  have here : state.place.current.kind = kind := congrArg Prod.fst (List.cons.inj stream).1
  have taken : Runs (Parse.advance >>= fun _ => Pure.pure true) state fun yes after => yes = true ∧ after = rest :=
    advance stream more some fun _ _ _ after => pure ⟨rfl, after⟩
  have eats : Runs (Parse.eat kind) state fun yes after => yes = true ∧ after = rest := by
    unfold Runs at taken ⊢
    rw [eat_apply, if_pos here]
    exact taken
  exact eats.bind fun yes place holds => holds.1 ▸ runs place holds.2

theorem eatNo {next : Bool → Parse α} (other : headKind state.stream ≠ kind) (runs : Runs (next false) state post) :
    Runs (Parse.eat kind >>= next) state post := by
  unfold Runs at runs ⊢
  rw [bind_apply, eat_apply, if_neg (show state.place.current.kind ≠ kind from other)]
  exact runs

theorem expect {kind : TokenKind} {text : Text} {rest : List Content} {code : DiagnosticCode} {message : Text}
    {next : Token → Parse α} (stream : state.stream = (kind, text) :: rest) (more : kind ≠ .endOfFile) (some : rest ≠ [])
    (runs : ∀ token place, token.content = (kind, text) → place.contents = rest →
      Runs (next token) (state.moved place) post) :
    Runs (Parse.expect kind code message >>= next) state post := by
  have here : state.place.current.kind = kind := congrArg Prod.fst (List.cons.inj stream).1
  have expects : Parse.expect kind code message state = Parse.advance state := by
    unfold Parse.expect
    rw [bind_apply]
    show (if decide (state.place.current.kind = kind) = true then Parse.advance else _ : Parse Token) state = _
    rw [if_pos (decide_eq_true here)]
  have advances : Runs (Parse.advance >>= next) state post := advance stream more some runs
  unfold Runs at advances ⊢
  rw [bind_apply] at advances ⊢
  rwa [expects]

theorem nested (shallow : state.depth < state.settings.maxNesting)
    (runs : Runs rule { state with depth := state.depth + 1 } post) : Runs (Parse.nested rule) state post := by
  obtain ⟨value, place, ran, holds⟩ := runs
  refine ⟨value, place, ?_, holds⟩
  rw [nested_apply, if_neg (Nat.not_le.mpr shallow), ran]
  rfl

/-- A loop keeps an invariant about what it carries and the tokens that are left; all but the last round take
tokens. -/
theorem loop {start : α} {round : α → Parse (Round α β)} (goesOn : α → List Content → Prop)
    (begins : goesOn start state.stream)
    (rounds : ∀ value place, goesOn value place.contents → Runs (round value) (state.moved place) fun outcome rest =>
      outcome.Holds (fun next => goesOn next rest ∧ rest.length < place.contents.length) (fun result => last result rest)) :
    Runs (Parse.loop start round) state last := by
  have within (allowance : List Token) : ∀ value place, goesOn value place.contents →
      place.contents.length ≤ allowance.length → Runs (loopWithin round allowance value) (state.moved place) last := by
    induction allowance with
    | nil =>
      intro value place _ short
      exact absurd short (by simp [Place.contents])
    | cons token allowance ih =>
      intro value place holds short
      unfold loopWithin
      refine (rounds value place holds).bind fun outcome after outcomeHolds => ?_
      cases outcome with
      | done result => exact pure outcomeHolds
      | again next =>
        refine ih next after outcomeHolds.1 ?_
        have := outcomeHolds.2
        simp only [List.length_cons] at short
        omega
  have length : state.stream.length ≤ (state.place.current :: state.place.upcoming).length := by
    simp [ParseState.stream, Place.contents]
  exact within _ start state.place begins length

theorem whileAt {starts : TokenKind → Bool} {xs : List Content} (stream : state.stream = xs ++ rest)
    (all : ∀ x ∈ xs, starts x.1 = true) (stops : starts (headKind rest) = false) (noEnd : starts .endOfFile = false)
    (some : rest ≠ []) :
    Runs (Parse.whileAt starts do return (← Parse.advance).text) state fun texts after =>
      texts = xs.map Prod.snd ∧ after = rest := by
  refine loop (fun found left => ∃ front back, xs = front ++ back ∧ found = (front.map Prod.snd).reverse ∧ left = back ++ rest)
    ⟨[], xs, rfl, rfl, stream⟩ fun found place goesOn => ?_
  obtain ⟨front, back, rfl, rfl, left⟩ := goesOn
  apply peek
  have kind : (state.moved place).place.current.kind = headKind (back ++ rest) := by rw [← left]; rfl
  cases back with
  | nil =>
    rw [show starts (state.moved place).place.current.kind = false by rw [kind]; exact stops]
    exact pure ⟨by simp, left⟩
  | cons x back =>
    have here : starts x.1 = true := all x (by simp)
    rw [show starts (state.moved place).place.current.kind = true by rw [kind]; exact here]
    have more : x.1 ≠ .endOfFile := by
      intro same
      rw [same, noEnd] at here
      cases here
    refine through (fun text after => text = x.2 ∧ after = back ++ rest) ?_ fun text after holds => ?_
    · refine advance left more (by simp [some]) fun token after content onward => pure ⟨?_, onward⟩
      rw [← content, Token.content_snd]
    · refine pure ⟨⟨front ++ [x], back, by simp, by simp [holds.1], holds.2⟩, ?_⟩
      show after.contents.length < _
      rw [holds.2, left]
      simp

theorem whileAtNone {starts : TokenKind → Bool} (stops : starts (headKind state.stream) = false) :
    Runs (Parse.whileAt starts rule) state fun found after => found = [] ∧ after = state.stream := by
  refine loop (fun found left => found = [] ∧ left = state.stream) ⟨rfl, rfl⟩ fun found place goesOn => ?_
  obtain ⟨rfl, left⟩ := goesOn
  apply peek
  have kind : starts (state.moved place).place.current.kind = false := by
    rw [← stops, ← left]
    rfl
  rw [kind]
  exact pure ⟨rfl, left⟩

theorem recover (runs : Runs rule state post) :
    Runs (Parse.recover rule) state fun found rest => ∃ value, found = some value ∧ post value rest := by
  obtain ⟨value, place, ran, holds⟩ := runs
  refine ⟨some value, place, ?_, value, rfl, holds⟩
  unfold Parse.recover
  rw [ran]

theorem lookahead {rule : Parse Bool} {answer : Bool}
    (runs : Runs rule { state with quiet := state.quiet + 1 } fun yes _ => yes = answer) :
    Runs (Parse.lookahead rule) state fun yes rest => yes = answer ∧ rest = state.stream := by
  obtain ⟨yes, place, ran, holds⟩ := runs
  refine ⟨yes, state.place, ?_, holds, rfl⟩
  unfold Parse.lookahead Parse.quietly
  rw [ran]
  rfl

end Runs

end Parse

end GenericC
