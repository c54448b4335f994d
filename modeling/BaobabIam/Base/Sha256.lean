import BaobabIam.Base.Text

/-! SHA-256 of a text in UTF-8. Nothing is assumed about it: a result that needs two
texts told apart by their digests says so of these texts. -/
namespace Sha256

abbrev Word := BitVec 32

def roundConstants : List Word :=
  [0x428a2f98, 0x71374491, 0xb5c0fbcf, 0xe9b5dba5, 0x3956c25b, 0x59f111f1, 0x923f82a4, 0xab1c5ed5,
   0xd807aa98, 0x12835b01, 0x243185be, 0x550c7dc3, 0x72be5d74, 0x80deb1fe, 0x9bdc06a7, 0xc19bf174,
   0xe49b69c1, 0xefbe4786, 0x0fc19dc6, 0x240ca1cc, 0x2de92c6f, 0x4a7484aa, 0x5cb0a9dc, 0x76f988da,
   0x983e5152, 0xa831c66d, 0xb00327c8, 0xbf597fc7, 0xc6e00bf3, 0xd5a79147, 0x06ca6351, 0x14292967,
   0x27b70a85, 0x2e1b2138, 0x4d2c6dfc, 0x53380d13, 0x650a7354, 0x766a0abb, 0x81c2c92e, 0x92722c85,
   0xa2bfe8a1, 0xa81a664b, 0xc24b8b70, 0xc76c51a3, 0xd192e819, 0xd6990624, 0xf40e3585, 0x106aa070,
   0x19a4c116, 0x1e376c08, 0x2748774c, 0x34b0bcb5, 0x391c0cb3, 0x4ed8aa4a, 0x5b9cca4f, 0x682e6ff3,
   0x748f82ee, 0x78a5636f, 0x84c87814, 0x8cc70208, 0x90befffa, 0xa4506ceb, 0xbef9a3f7, 0xc67178f2]

structure State where
  (a b c d e f g h : Word)

def initial : State :=
  ⟨0x6a09e667, 0xbb67ae85, 0x3c6ef372, 0xa54ff53a, 0x510e527f, 0x9b05688c, 0x1f83d9ab, 0x5be0cd19⟩

def round (s : State) (k w : Word) : State :=
  let s1 := s.e.rotateRight 6 ^^^ s.e.rotateRight 11 ^^^ s.e.rotateRight 25
  let ch := (s.e &&& s.f) ^^^ (~~~s.e &&& s.g)
  let t1 := s.h + s1 + ch + k + w
  let s0 := s.a.rotateRight 2 ^^^ s.a.rotateRight 13 ^^^ s.a.rotateRight 22
  let maj := (s.a &&& s.b) ^^^ (s.a &&& s.c) ^^^ (s.b &&& s.c)
  ⟨t1 + (s0 + maj), s.a, s.b, s.c, s.d + t1, s.e, s.f, s.g⟩

/-- The words of the message schedule from the current one on. -/
structure Window where
  (w0 w1 w2 w3 w4 w5 w6 w7 w8 w9 w10 w11 w12 w13 w14 w15 : Word)

def Window.next (w : Window) : Window :=
  let s0 := w.w1.rotateRight 7 ^^^ w.w1.rotateRight 18 ^^^ (w.w1 >>> 3)
  let s1 := w.w14.rotateRight 17 ^^^ w.w14.rotateRight 19 ^^^ (w.w14 >>> 10)
  ⟨w.w1, w.w2, w.w3, w.w4, w.w5, w.w6, w.w7, w.w8, w.w9, w.w10, w.w11, w.w12, w.w13, w.w14, w.w15,
    w.w0 + s0 + w.w9 + s1⟩

def rounds : List Word → Window → State → State
  | [], _, s => s
  | k :: ks, w, s => rounds ks w.next (round s k w.w0)

def compress (s : State) : List Word → State
  | [w0, w1, w2, w3, w4, w5, w6, w7, w8, w9, w10, w11, w12, w13, w14, w15] =>
    let t := rounds roundConstants ⟨w0, w1, w2, w3, w4, w5, w6, w7, w8, w9, w10, w11, w12, w13, w14, w15⟩ s
    ⟨s.a + t.a, s.b + t.b, s.c + t.c, s.d + t.d, s.e + t.e, s.f + t.f, s.g + t.g, s.h + t.h⟩
  | _ => s

def words : List UInt8 → List Word
  | b0 :: b1 :: b2 :: b3 :: bs =>
    BitVec.ofNat 32 (b0.toNat * 2 ^ 24 + b1.toNat * 2 ^ 16 + b2.toNat * 2 ^ 8 + b3.toNat) :: words bs
  | _ => []

def blocks : Nat → List Word → State → State
  | 0, _, s => s
  | n + 1, ws, s => blocks n (ws.drop 16) (compress s (ws.take 16))

def padding (n : Nat) : List UInt8 :=
  0x80 :: List.replicate ((119 - n % 64) % 64) 0 ++
    (List.range 8).map (fun i => UInt8.ofNat (8 * n / 256 ^ (7 - i)))

def ofBytes (bs : List UInt8) : BitVec 256 :=
  let ws := words (bs ++ padding bs.length)
  let s := blocks (ws.length / 16) ws initial
  (s.a ++ s.b ++ s.c ++ s.d ++ s.e ++ s.f ++ s.g ++ s.h).cast (by rfl)

def digest (t : Text) : BitVec 256 := ofBytes (t.flatMap String.utf8EncodeChar)

def hex (t : Text) : Text := Text.padded 16 64 (digest t).toNat

theorem hex_injective {x y : Text} (same : hex x = hex y) : digest x = digest y := by
  have small : ∀ d : BitVec 256, d.toNat < 16 ^ 64 := fun d => d.isLt
  exact BitVec.eq_of_toNat_eq (Text.padded_inj (by decide) Text.hex_digits (small _) (small _) same)

def Apart (x y : Text) : Prop := digest x = digest y → x = y

theorem Apart.eq {x y : Text} (apart : Apart x y) (same : hex x = hex y) : x = y := apart (hex_injective same)

example : hex "abc" = "ba7816bf8f01cfea414140de5dae2223b00361a396177a9cb410ff61f20015ad" := by
  decide +kernel

end Sha256
