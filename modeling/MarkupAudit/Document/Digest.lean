import MarkupAudit.Text.Numeral

/-! The SHA-256 digest of a sequence of bytes. -/

namespace MarkupAudit.Sha256

/-- The round constants: 32 bits of the fractional part of the cube root of each of the first 64
primes. -/
def roundConstants : Array UInt32 :=
  #[0x428a2f98, 0x71374491, 0xb5c0fbcf, 0xe9b5dba5, 0x3956c25b, 0x59f111f1, 0x923f82a4, 0xab1c5ed5,
    0xd807aa98, 0x12835b01, 0x243185be, 0x550c7dc3, 0x72be5d74, 0x80deb1fe, 0x9bdc06a7, 0xc19bf174,
    0xe49b69c1, 0xefbe4786, 0x0fc19dc6, 0x240ca1cc, 0x2de92c6f, 0x4a7484aa, 0x5cb0a9dc, 0x76f988da,
    0x983e5152, 0xa831c66d, 0xb00327c8, 0xbf597fc7, 0xc6e00bf3, 0xd5a79147, 0x06ca6351, 0x14292967,
    0x27b70a85, 0x2e1b2138, 0x4d2c6dfc, 0x53380d13, 0x650a7354, 0x766a0abb, 0x81c2c92e, 0x92722c85,
    0xa2bfe8a1, 0xa81a664b, 0xc24b8b70, 0xc76c51a3, 0xd192e819, 0xd6990624, 0xf40e3585, 0x106aa070,
    0x19a4c116, 0x1e376c08, 0x2748774c, 0x34b0bcb5, 0x391c0cb3, 0x4ed8aa4a, 0x5b9cca4f, 0x682e6ff3,
    0x748f82ee, 0x78a5636f, 0x84c87814, 0x8cc70208, 0x90befffa, 0xa4506ceb, 0xbef9a3f7, 0xc67178f2]

/-- The eight words that a digest consists of. -/
structure State where
  a : UInt32
  b : UInt32
  c : UInt32
  d : UInt32
  e : UInt32
  f : UInt32
  g : UInt32
  h : UInt32

/-- The words before the first block: 32 bits of the fractional part of the square root of each of
the first eight primes. -/
def State.initial : State where
  a := 0x6a09e667
  b := 0xbb67ae85
  c := 0x3c6ef372
  d := 0xa54ff53a
  e := 0x510e527f
  f := 0x9b05688c
  g := 0x1f83d9ab
  h := 0x5be0cd19

/-- The word turned to the right by `n` bits. -/
def turnRight (x n : UInt32) : UInt32 :=
  x >>> n ||| x <<< (32 - n)

/-- The message with a bit 1, zeros up to 56 bytes beyond a multiple of 64, and its length in
bits. -/
def padded (message : ByteArray) : List UInt8 :=
  let size := message.size
  let zeros := (119 - size % 64) % 64
  let bits := 8 * size
  message.toList ++ 0x80 :: List.replicate zeros 0 ++
    (List.range 8).map fun i => UInt8.ofNat (bits / Nat.pow 256 (7 - i))

/-- Four bytes as a word, the most significant first. -/
def words : List UInt8 → List UInt32
  | a :: b :: c :: d :: rest =>
    (a.toUInt32 <<< 24 ||| b.toUInt32 <<< 16 ||| c.toUInt32 <<< 8 ||| d.toUInt32) :: words rest
  | _ => []

/-- The words of a block followed by those computed from the words before them. -/
def schedule (block : List UInt32) : Array UInt32 :=
  (List.range 48).foldl
    (fun w i =>
      let x := w.getD (i + 1) 0
      let y := w.getD (i + 14) 0
      let s := turnRight x 7 ^^^ turnRight x 18 ^^^ x >>> 3
      let t := turnRight y 17 ^^^ turnRight y 19 ^^^ y >>> 10
      w.push (w.getD i 0 + s + w.getD (i + 9) 0 + t))
    block.toArray

/-- One round. -/
def State.round (v : State) (constant word : UInt32) : State :=
  let s := turnRight v.e 6 ^^^ turnRight v.e 11 ^^^ turnRight v.e 25
  let choice := v.e &&& v.f ^^^ (v.e ^^^ 0xffffffff) &&& v.g
  let t := v.h + s + choice + constant + word
  let r := turnRight v.a 2 ^^^ turnRight v.a 13 ^^^ turnRight v.a 22
  let majority := v.a &&& v.b ^^^ v.a &&& v.c ^^^ v.b &&& v.c
  { a := t + (r + majority), b := v.a, c := v.b, d := v.c, e := v.d + t, f := v.e, g := v.f,
    h := v.g }

/-- The words after a block. -/
def State.absorb (v : State) (block : List UInt32) : State :=
  let w := schedule block
  let u := (List.range 64).foldl (fun u i => u.round (roundConstants.getD i 0) (w.getD i 0)) v
  { a := v.a + u.a, b := v.b + u.b, c := v.c + u.c, d := v.d + u.d, e := v.e + u.e, f := v.f + u.f,
    g := v.g + u.g, h := v.h + u.h }

/-- The words after all blocks, `count` of them. -/
def State.absorbAll (v : State) (ws : List UInt32) : Nat → State
  | 0 => v
  | count + 1 => (v.absorb (ws.take 16)).absorbAll (ws.drop 16) count

/-- The digest in 64 hexadecimal digits. -/
def digest (message : ByteArray) : String :=
  let ws := words (padded message)
  let v := State.initial.absorbAll ws (ws.length / 16)
  String.join ([v.a, v.b, v.c, v.d, v.e, v.f, v.g, v.h].map fun x => Text.hexadecimal 8 x.toNat)

end MarkupAudit.Sha256
