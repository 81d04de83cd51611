import GenericC.Text.CodeTable

/-! Printable code points: letters, marks, numbers, punctuation and symbols of
Unicode 15, and the space. -/

namespace GenericC.Text

def printableTable : CodeTable := .ranges [
  "w-2m z-b 2-jt 3-5 5-6 2 2-j 2-b0 2-11 3-1d 3-2 2-1i 9-q 5-5 i-l 2-5b 2-1b 3-1m 3-2s f-1m 3-1c 3-e 2-r 3 2-a 6-u",
  "a-21 2-4g 2-7 3-1 3-l 2-6 2 4-3 3-8 3-1 3-3 9 5-1 2-4 3-o 3-2 2-5 5-1 3-l 2-6 2-1 2-1 2-1 3 2-4 5-1 3-2 4 8-3 2",
  "8-g b-2 2-8 2-2 2-l 2-6 2-1 2-4 3-9 2-2 2-2 3 g-3 3-b 8-6 2-2 2-7 3-1 3-l 2-6 2-1 2-4 3-8 3-1 3-2 8-2 5-1 2-4 3-h",
  "b-1 2-5 4-2 2-3 4-1 2 2-1 4-1 4-2 4-b 5-4 4-2 2-3 3 7 f-k 6-c 2-2 2-m 2-f 3-8 2-2 2-3 8-1 2-2 3 3-3 3-9 8-l 2-2",
  "2-m 2-9 2-4 3-8 2-2 2-3 8-1 7-1 2-3 3-9 2-2 d-c 2-2 2-1e 2-2 2-5 5-f 3-p 2-2 2-h 4-n 2-8 2 3-6 4 5-5 2 2-7 7-9",
  "3-2 d-1l 5-s 12-1 2 2-4 2-n 2 2-m 3-4 2 2-6 2-9 3-3 x-1z 2-z 5-12 2-z 2-e 2-c 12-5h 2 6 3-ag 2-3 3-6 2 2-3 3-14",
  "2-3 3-w 2-3 3-6 2 2-3 3-e 2-1k 2-3 3-1u 3-v 4-p 7-2d 3-5 3-hr 2-r 4-2g 8-l a-n a-j d-c 2-2 2-1 d-2l 3-9 7-9 7-d",
  "2-a 7-2g 8-16 6-1x b-u 2-b 5-b 5 4-15 3-4 c-17 5-p 7-a 4-1p 3-1s 2-s 3-a 7-9 7-d 3-u 1e-24 4-1a 2-37 9-1n 4-e",
  "4-1n 8-16 3-a 9-16 6-et 3-5 3-11 3-5 3-7 2 2 2 2-u 3-1g 2-e 2-d 3-5 2-i 3-2 2-8 i-n 9-1a i-1 3-q 2-c 4-w g-w g-3v",
  "5-ie q-a m-1eb 3-v 2-9o 6-18 2 6 3-1j 8-1 f-n a-6 2-6 2-6 2-6 2-6 2-6 2-6 2-6 2-3h z-p 2-2g d-5x r-b 6-1q 2-2d",
  "3-2u 6-16 2-2l 2-2b d-1a 2-mlo 4-1i a-9n l-53 9-5m 6-1 2 2-4 p-1m 4-9 7-1j 9-1x 9-b 7-37 c-t 4-25 2-a 5-w 2-1i",
  "a-d 3-9 3-2u p-r b-5 3-5 3-5 a-6 2-6 2-1n 5-3h 3-9 7-8mb d-m 5-1c 6it-a5 3-2x 13-6 d-4 6-p 2-4 2 2-1 2-1 2-3g",
  "h-cc 3-1h 8 x-15 7-1e 2-i 2-3 5-4 2-3q 5-59 4-5 3-5 3-5 3-2 4-6 2-6 e-1 3-b 2-p 2-i 2-1 2-e 3-d z-3e 6-2 5-18",
  "4-2f 2-c 4 1c-19 3n-s 4-1c g-r 5-z a-t 6-16 6-t 2-10 5-d 17-4d 3-9 7-z 5-z 5-13 9-1f c-b 2-e 2-6 2-1 2-a 2-e 2-6",
  "2-1 1w-8m a-l b-7 p-5 2-15 2-8 1y-5 3 2-17 2-1 4 3-m 2-1z 9-8 1d-i 2-1 6-w 4-q 6 1t-1j 5-j 3-1d 2-1 6-7 2-2 2-s",
  "3-2 5-9 8-8 8-1r x-12 5-b a-1h 4-s 3-q 6-p 8-3 d-6 29-20 1k-1e e-1e 8-19 9-9 87-u 2-15 2-2 3-1 24-16 9-15 n-p",
  "13-r l-m a-25 5-z a-1p 2-4 e-o 8-9 7-1g 2-h 9-12 a-2n 2-j c-h 2-1a 1r-6 2 2-3 2-e 2-a 7-1m 6-9 7-3 2-7 3-1 3-l",
  "2-6 2-1 2-4 2-9 3-1 3-2 3 7 6-6 3-6 4-4 3w-2j 2-4 v-1z 9-9 4n-1h 3-11 z-1w c-9 7-c k-1l 7-9 1j-q 3-e 5-m 56-1n",
  "2t-2a d-7 3 3-7 2-1 2-t 2-1 3-b a-9 1z-7 3-19 3-a s-1z 9-2a e-20 8-9 6v-8 2-18 2-d b-s 4-v 3-l 2-d 22-6 2-1 2-17",
  "4 2-1 2-8 9-9 7-5 2-1 2-10 2-1 2-5 8-9 8n-o 8-g 2-14 4-r 2f g-1d e-pm 2v-32 2-4 c-5f 219-2q e-tr h-l 33f-g6",
  "6nu-fs 8-u 2-9 5-28 2-9 7-t 3-5 b-1x b-9 2-6 2-k 6-i j5-2i 2u-22 5-1k 8-g 1t-4 c-1 f-4qf 9-yd 17-8 6w8-3 2-6 2-1",
  "2-82 g u-2 3 f-3 9-az 1s5-2y 6-c 4-8 8-9 3-3 3mp-19 3-m a-37 1p-6t b-12 3-21 9-33 m-1x 3f-j d-j d-2e a-o 3s-2c",
  "2-1y 2-1 3 3-1 3-3 2-b 2 2-6 2-1s 2-3 3-7 2-6 2-r 2-3 2-4 2 4-6 2-9f 3-83 3-jh g-4 2-e up-u 7-5 5y-6 2-g 3-6 2-1",
  "2-4 6-1p y 35-18 4-d 3-9 5-1 8x-u i-1l 6 cx-15 kn-6 2-3 2-1 2-e 2-5g 3-f 16-23 5-9 5-1 lu-1v 25-1o 5f-3 2-q 2-1 2",
  "3 2-9 2-3 2 2 7 5 2 2 2-2 2-1 2 3 2 2 2 2 2-1 2 3-3 2-6 2-3 2-3 2 2-9 2-g 6-2 2-4 2-g 1h-1 7j-17 5-2r d-e 3-e 2-e",
  "2-10 b-4t 1l-s e-17 5-8 8-1 f-5 4b-rb 5-g 4-c 4-3a 5-2m 7-b 5 g-b 5-1j 9-9 7-13 9-t 3-1 27-9f d-d 3-c 4-8 8-19",
  "2-6 9-d 5-8 8-8 8-42 2-1i 12-9 sn-wyn x-37d 7-65 3-4g1 f-5rk 2e8-f1 15v-3t6 6-38f f9e9-6n"]

def isPrintableCode (code : Nat) : Bool :=
  if code < 0x7F then 0x20 ≤ code else printableTable.contains code

end GenericC.Text
