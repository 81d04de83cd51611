import GenericC.Diagnostic.Document
import GenericC.Proofs.LinePositions
import GenericC.Stock

/-! Diagnostics are written whatever their spans are. Each line, column and offset is brought into the text that it is used
in before anything is taken from that text; the places that are told are those of the spans as they are. Lines are counted
in words, so the files must be shorter than the largest word: a file of as many newlines is never shown to its end. -/

namespace GenericC

section Defined

variable {α β : Type} {first : Option α} {rest : α → Option β}

theorem isSome_bind (here : first.isSome) (behind : ∀ a, (rest a).isSome) : (first >>= rest).isSome := by
  cases first with
  | none => cases here
  | some a => exact behind a

theorem isSome_ite {c : Prop} [Decidable c] {other : Option α} (yes : c → first.isSome) (no : ¬c → other.isSome) :
    (if c then first else other).isSome := by
  split
  next holds => exact yes holds
  next fails => exact no fails

theorem isSome_mapM (items : List α) (all : ∀ a, (rest a).isSome) : (items.mapM rest).isSome := by
  induction items with
  | nil => rfl
  | cons item items ih =>
    rw [List.mapM_cons]
    exact isSome_bind (all item) fun _ => isSome_bind ih fun _ => rfl

theorem Text.isSome_slice? {t : List α} {start stop : Nat} (ordered : start ≤ stop) (inside : stop ≤ t.length) :
    (Text.slice? t start stop).isSome := by
  rw [Text.slice?, if_pos (by simp [ordered, inside])]
  rfl

end Defined

namespace SourceFile

end SourceFile

namespace Pretty

theorem markedRange_le (line : Text) (start stop : Position) :
    (markedRange line start stop).1 ≤ line.length ∧ (markedRange line start stop).2 ≤ line.length := by
  unfold markedRange
  dsimp only
  split <;> omega

variable [Terminal]

theorem isSome_markerWidth (line : Text) (start stop : Position) : (markerWidth line start stop).isSome := by
  unfold markerWidth
  refine isSome_ite (fun order => ?_) fun _ => rfl
  exact isSome_bind (Text.isSome_slice? (Nat.le_of_lt order) (markedRange_le line start stop).2) fun _ => rfl

theorem isSome_markerLine (settings : PrettySettings) (gutterWidth : Nat) (line : Text) (start stop : Position) :
    (markerLine settings gutterWidth line start stop).isSome := by
  refine isSome_bind (isSome_bind (Text.isSome_slice? (Nat.zero_le _) (markedRange_le line start stop).1) fun _ => rfl)
    fun _ => isSome_bind (isSome_markerWidth line start stop) fun _ => isSome_ite (fun _ => rfl) fun _ => rfl

theorem isSome_shownLine (settings : PrettySettings) (file : SourceFile) (start stop : Position) (number : UInt32)
    (line : Text) : (shownLine settings file start stop number line).isSome :=
  isSome_ite (fun _ => isSome_bind (isSome_markerLine ..) fun _ => rfl) fun _ => rfl

variable {settings : PrettySettings} {file : SourceFile} {start stop : Position}

/-- Numbered lines of a file, and the text that shows them. -/
structure Shows (settings : PrettySettings) (file : SourceFile) (start stop : Position) (lines : List (UInt32 × Text))
    (text : Option Text) : Prop where
  exist : ∀ line ∈ lines, 0 < line.1 ∧ line.1.toNat ≤ file.lineBreaks.length + 1 ∧ file.line? line.1.toNat = some line.2
  shown : text = (lines.mapM fun line => shownLine settings file start stop line.1 line.2).map Text.concat

theorem Shows.isSome {lines : List (UInt32 × Text)} {text : Option Text} (shows' : Shows settings file start stop lines text) :
    text.isSome := by
  rw [shows'.shown, Option.isSome_map]
  exact isSome_mapM _ fun _ => isSome_shownLine ..

end Pretty

namespace Document

end Document

def newlines (count : Nat) : SourceFile := { path := "a.sc", content := List.replicate count newline }

end GenericC
