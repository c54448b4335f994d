import BaobabIam.Base.Text

/-! `base64.RawURLEncoding`: six bits a character, no padding. -/
namespace Base64

def alphabet (d : Nat) : Char :=
  if d < 26 then Char.ofNat (65 + d)
  else if d < 52 then Char.ofNat (97 + (d - 26))
  else if d < 62 then Char.ofNat (48 + (d - 52))
  else if d = 62 then '-'
  else '_'

def group (n w : Nat) : Text :=
  ([n / 2 ^ 18, n / 2 ^ 12, n / 2 ^ 6, n].map (fun d => alphabet (d % 64))).take w

def rawURL : List UInt8 → Text
  | a :: b :: c :: bs => group (a.toNat * 2 ^ 16 + b.toNat * 2 ^ 8 + c.toNat) 4 ++ rawURL bs
  | [a, b] => group (a.toNat * 2 ^ 16 + b.toNat * 2 ^ 8) 3
  | [a] => group (a.toNat * 2 ^ 16) 2
  | [] => []

def bytes (w n : Nat) : List UInt8 := (List.range w).map (fun i => UInt8.ofNat (n / 256 ^ (w - 1 - i)))

example : rawURL [0xfb, 0xff, 0x10, 0x00] = "-_8QAA" := by decide

end Base64
