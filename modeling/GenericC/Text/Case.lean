import GenericC.Text.Utf8
import GenericC.Text.CodeTable

/-! Lower case, code point by code point. -/

namespace GenericC.Text

/-- Runs of upper case code points above ASCII: first and last, step, and the image of the first. -/
def lowerTable : CodeTable := .ranges [
  "5c-m:1:68 2-6:1:6w y-1a:2:75 2-0:1:2x 2-4:2:8j 3-e:2:8q 3-18:2:97 2-0:1:73 1-4:2:ai 4-0:1:gj 1-2:2:ar 2-0:1:gk",
  "1-0:1:aw 2-1:1:gm 1-0:1:b0 3-0:1:d9 1-0:1:gp 1-0:1:gr 1-0:1:b6 2-0:1:gw 1-0:1:gz 2-0:1:h5 1-0:1:h4 1-0:1:bd",
  "4-0:1:hb 1-0:1:he 2-0:1:hh 1-4:2:bl 2-0:1:hs 1-0:1:bs 2-0:1:hv 3-0:1:bx 2-0:1:i0 1-0:1:c0 2-1:1:i2 1-2:2:c4",
  "2-0:1:ia 1-0:1:c9 4-0:1:cd 8-0:1:cm 1-0:1:cm 2-0:1:cp 1-0:1:cp 2-0:1:cs 1-g:2:cs 3-g:2:db 3-0:1:dv 1-2:2:dv",
  "2-0:1:b9 1-0:1:cf 1-12:2:e1 2-0:1:bi 2-g:2:f7 8-0:1:8rp 1-0:1:fw 2-0:1:be 1-0:1:8rq 3-0:1:g2 2-0:1:ao 1-0:1:i1",
  "1-0:1:i4 1-8:2:g7 82-2:2:oh 4-0:1:on 9-0:1:s3 7-0:1:q4 2-2:1:q5 2-0:1:r0 2-1:1:r1 2-g:1:q9 2-8:1:qr 10-0:1:rb",
  "9-m:2:rd 6-0:1:qg 3-0:1:s8 2-0:1:s2 1-0:1:sb 3-2:1:or 1-f:1:uo 1-v:1:ts 1d-w:2:v5 a-1g:2:wb 2-0:1:y7 1-c:2:xu",
  "3-2m:2:y9 3-11:1:129 28a-11:1:8w0 2-0:1:8x3 6-0:1:8x9 k3-27:1:xv4 1-5:1:3y0 1p7-16:1:3bk 3-2:1:3ct 8x-44:2:5xd",
  "a-0:1:67 2-2m:2:61t a-7:1:64g 9-5:1:64w b-7:1:65c 9-7:1:65s 9-5:1:668 c-6:2:66p 9-7:1:674 p-7:1:680 9-7:1:68g",
  "9-7:1:68w 9-1:1:69c 1-1:1:67k 1-0:1:69f c-3:1:67m 1-0:1:69v c-1:1:6a8 1-1:1:67q d-1:1:6ao 1-1:1:67u 1-0:1:6at",
  "c-1:1:67s 1-1:1:67w 1-0:1:6b7 8a-0:1:qx 4-0:1:2z 1-0:1:6d 7-0:1:6ku 1a-f:1:6ls k-0:1:6mc mr-p:1:79s 1f5-1b:1:8q8",
  "1d-0:1:8rl 2-0:1:h7 1-0:1:5tp 1-0:1:hp 3-4:2:8rs 2-0:1:gh 1-0:1:hd 1-0:1:gg 1-0:1:gi 2-0:1:8s3 3-0:1:8s6 9-1:1:fz",
  "1-2q:2:8sh 9-2:2:8vg 5-0:1:8vn nym-18:2:wu9 k-q:2:ww1 3s-c:2:x0j 4-1o:2:x0z b-2:2:x2y 2-0:1:5tl 1-8:2:x33",
  "5-0:1:x3g 2-0:1:h1 3-2:2:x3l 4-i:2:x3r 2-0:1:h2 1-0:1:gs 1-0:1:gx 1-0:1:h8 1-0:1:h6 2-0:1:im 1-0:1:hz 1-0:1:il",
  "1-0:1:xub 1-e:2:x4l 2-0:1:x3o 1-0:1:hu 1-0:1:5u6 1-2:2:x54 7-0:1:x5d 6-2:2:x5j t-0:1:x6e h7w-p:1:1ef5",
  "xy-13:1:1fe0 3t-z:1:1fiw 4d-a:1:1fo7 2-e:1:1foj 2-6:1:1foz 2-1:1:1fp7 1d7-1e:1:1h34 2cu-v:1:1jgg gw1-v:1:20dc",
  "o81-x:1:2oma"]

def lowerCode (code : Nat) : Nat :=
  if code < 0x80 then (if 0x41 ≤ code && code ≤ 0x5A then code + 0x20 else code)
  else lowerTable.entries.foldr (fun entry found =>
    match entry with
    | [first, last, step, image] =>
      if first ≤ code && code ≤ last && (code - first) % step = 0 then image + (code - first) else found
    | _ => found) code

def toLower (t : Text) : Text := t.runes.flatMap fun rune => ofCode (lowerCode rune.code)

end GenericC.Text
