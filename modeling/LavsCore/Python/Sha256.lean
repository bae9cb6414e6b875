import Mathlib.Algebra.Group.Nat.Defs
import Mathlib.Data.List.Basic

/-!
# SHA-256

`hashlib.sha256(text.encode("utf-8")).hexdigest()`. Tokens are stored and looked up
under their digest, so the digest is computed here and not assumed.
-/

namespace Py

namespace Sha256

/-- The constants of the 64 rounds. -/
def roundConstants : List Nat :=
  [0x428a2f98, 0x71374491, 0xb5c0fbcf, 0xe9b5dba5, 0x3956c25b, 0x59f111f1, 0x923f82a4, 0xab1c5ed5,
   0xd807aa98, 0x12835b01, 0x243185be, 0x550c7dc3, 0x72be5d74, 0x80deb1fe, 0x9bdc06a7, 0xc19bf174,
   0xe49b69c1, 0xefbe4786, 0x0fc19dc6, 0x240ca1cc, 0x2de92c6f, 0x4a7484aa, 0x5cb0a9dc, 0x76f988da,
   0x983e5152, 0xa831c66d, 0xb00327c8, 0xbf597fc7, 0xc6e00bf3, 0xd5a79147, 0x06ca6351, 0x14292967,
   0x27b70a85, 0x2e1b2138, 0x4d2c6dfc, 0x53380d13, 0x650a7354, 0x766a0abb, 0x81c2c92e, 0x92722c85,
   0xa2bfe8a1, 0xa81a664b, 0xc24b8b70, 0xc76c51a3, 0xd192e819, 0xd6990624, 0xf40e3585, 0x106aa070,
   0x19a4c116, 0x1e376c08, 0x2748774c, 0x34b0bcb5, 0x391c0cb3, 0x4ed8aa4a, 0x5b9cca4f, 0x682e6ff3,
   0x748f82ee, 0x78a5636f, 0x84c87814, 0x8cc70208, 0x90befffa, 0xa4506ceb, 0xbef9a3f7, 0xc67178f2]

/-- The eight words of the state. -/
structure Words where
  a : BitVec 32
  b : BitVec 32
  c : BitVec 32
  d : BitVec 32
  e : BitVec 32
  f : BitVec 32
  g : BitVec 32
  h : BitVec 32

def initial : Words :=
  ⟨0x6a09e667, 0xbb67ae85, 0x3c6ef372, 0xa54ff53a, 0x510e527f, 0x9b05688c, 0x1f83d9ab, 0x5be0cd19⟩

/-- One round, with its constant and its word of the message schedule. -/
def round (s : Words) (kw : BitVec 32 × BitVec 32) : Words :=
  let sigma1 := s.e.rotateRight 6 ^^^ s.e.rotateRight 11 ^^^ s.e.rotateRight 25
  let choice := (s.e &&& s.f) ^^^ (~~~s.e &&& s.g)
  let temp1 := s.h + sigma1 + choice + kw.1 + kw.2
  let sigma0 := s.a.rotateRight 2 ^^^ s.a.rotateRight 13 ^^^ s.a.rotateRight 22
  let majority := (s.a &&& s.b) ^^^ (s.a &&& s.c) ^^^ (s.b &&& s.c)
  ⟨temp1 + (sigma0 + majority), s.a, s.b, s.c, s.d + temp1, s.e, s.f, s.g⟩

/-- The message schedule: each further word from the sixteen before it. The newest
word stands first until the end. -/
def schedule : Nat → List (BitVec 32) → List (BitVec 32)
  | 0, ws => ws.reverse
  | n + 1, ws =>
    let w15 := ws.getD 14 0
    let w2 := ws.getD 1 0
    let sigma0 := w15.rotateRight 7 ^^^ w15.rotateRight 18 ^^^ w15 >>> 3
    let sigma1 := w2.rotateRight 17 ^^^ w2.rotateRight 19 ^^^ w2 >>> 10
    schedule n ((ws.getD 15 0 + sigma0 + ws.getD 6 0 + sigma1) :: ws)

def compress (s : Words) (block : List (BitVec 32)) : Words :=
  let t := ((roundConstants.map (BitVec.ofNat 32)).zip (schedule 48 block.reverse)).foldl round s
  ⟨s.a + t.a, s.b + t.b, s.c + t.c, s.d + t.d, s.e + t.e, s.f + t.f, s.g + t.g, s.h + t.h⟩

/-- The message with its padding: a one bit, zeros, and its length in bits. -/
def pad (message : List Nat) : List Nat :=
  let zeros := (119 - message.length % 64) % 64
  message ++ 0x80 :: List.replicate zeros 0 ++
    (List.range 8).map fun i => 8 * message.length / 256 ^ (7 - i) % 256

/-- Big-endian words of four bytes. -/
def words : List Nat → List (BitVec 32)
  | a :: b :: c :: d :: rest =>
    BitVec.ofNat 32 (((a * 256 + b) * 256 + c) * 256 + d) :: words rest
  | _ => []

def digest (message : List Nat) : Words :=
  ((words (pad message)).toChunks 16).foldl compress initial

def hex (w : BitVec 32) : List Char :=
  (List.range 8).map fun i => Nat.digitChar (w.toNat / 16 ^ (7 - i) % 16)

end Sha256

/-- The hexadecimal digest of a text in UTF-8. -/
def sha256 (text : String) : String :=
  let s := Sha256.digest ((text.toList.flatMap String.utf8EncodeChar).map UInt8.toNat)
  String.ofList ([s.a, s.b, s.c, s.d, s.e, s.f, s.g, s.h].flatMap Sha256.hex)

example : sha256 "abc" = "ba7816bf8f01cfea414140de5dae2223b00361a396177a9cb410ff61f20015ad" := by
  decide +kernel

end Py
