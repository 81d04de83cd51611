import GenericC.Build.EntryFields
import GenericC.Source.File
import GenericC.Terminal
import GenericC.Text.Composed
import GenericC.Text.Width
import GenericC.Toml.Reader

/-! What the tool takes from elsewhere, as it has it: the composed form of texts, the cells and colours of terminals, the
bytes of cache entries and the documents of manifests. -/

namespace GenericC

namespace Style

def control (numbers : List Nat) : Text :=
  Text.concat ["\x1b[", Text.joinWith ";" (numbers.map Text.ofNat), "m"]

def paint (style : Style) (text : Text) : Text :=
  let on := style.colour.toList ++ if style.bold then [1] else []
  let off := (if style.colour.isSome then [0] else []) ++ if style.bold then [22] else []
  if on.isEmpty then text else Text.concat [control on, text, control off]

end Style

instance : Composition := ⟨Text.composed⟩

instance : Terminal where
  codeWidth := Text.codeWidth
  textWidth := Text.displayWidth
  truncate := Text.truncateWidth
  paint style on text := if on then style.paint text else text

instance : EntryCodec := ⟨CacheEntry.encode, CacheEntry.decode?⟩

instance : Toml.Reader := ⟨Toml.parse⟩

end GenericC
