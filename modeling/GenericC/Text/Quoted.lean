import GenericC.Text.Utf8
import GenericC.Text.Printable

/-! Quoted texts as messages show them: between double quotes, with printable
characters as they are and everything else behind a backslash. -/

namespace GenericC.Text

def escapeCode (code : Nat) : Text :=
  if code = 7 then "\\a"
  else if code = 8 then "\\b"
  else if code = 12 then "\\f"
  else if code = 10 then "\\n"
  else if code = 13 then "\\r"
  else if code = 9 then "\\t"
  else if code = 11 then "\\v"
  else if code < 0x20 || code = 0x7F then ofString "\\x" ++ hexPadded 2 code
  else if code < 0x10000 then ofString "\\u" ++ hexPadded 4 code
  else ofString "\\U" ++ hexPadded 8 code

private def quoteRune (shown : Nat → Bool) (spelling : Text) (rune : Rune) : Text :=
  if !rune.valid then ofString "\\x" ++ spelling.toHex
  else if rune.code = 34 then "\\\""
  else if rune.code = 92 then "\\\\"
  else if shown rune.code then spelling
  else escapeCode rune.code

private def quoteLoop (shown : Nat → Bool) : List Rune → Text → List Text → Text
  | [], _, done => done.reverse.flatten
  | rune :: rest, t, done =>
    quoteLoop shown rest (t.drop rune.size) (quoteRune shown (t.take rune.size) rune :: done)

private def quoteWith (shown : Nat → Bool) (t : Text) : Text :=
  byte '"' :: quoteLoop shown t.runes t [] ++ [byte '"']

/-- A text between quotes; malformed bytes are written in hexadecimal. -/
def quoted (t : Text) : Text := quoteWith isPrintableCode t

/-- Like `quoted`, with everything outside ASCII escaped. -/
def quotedAscii (t : Text) : Text := quoteWith (fun code => code < 0x80 && isPrintableCode code) t

end GenericC.Text
