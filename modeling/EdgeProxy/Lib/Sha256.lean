import EdgeProxy.Lib.Numbers

/-! # SHA-256

The digest of a byte string, with the 32-bit words as numbers below `2 ^ 32`.
-/

namespace Rust.Sha256

def wordBound : ℕ := 2 ^ 32

def rotateRight (n word : ℕ) : ℕ := (word >>> n) ||| ((word <<< (32 - n)) % wordBound)

def bigSigma0 (x : ℕ) : ℕ := rotateRight 2 x ^^^ rotateRight 13 x ^^^ rotateRight 22 x

def bigSigma1 (x : ℕ) : ℕ := rotateRight 6 x ^^^ rotateRight 11 x ^^^ rotateRight 25 x

def smallSigma0 (x : ℕ) : ℕ := rotateRight 7 x ^^^ rotateRight 18 x ^^^ (x >>> 3)

def smallSigma1 (x : ℕ) : ℕ := rotateRight 17 x ^^^ rotateRight 19 x ^^^ (x >>> 10)

def choose (x y z : ℕ) : ℕ := (x &&& y) ^^^ ((x ^^^ (wordBound - 1)) &&& z)

def majority (x y z : ℕ) : ℕ := (x &&& y) ^^^ (x &&& z) ^^^ (y &&& z)

def constants : List ℕ :=
  [0x428a2f98, 0x71374491, 0xb5c0fbcf, 0xe9b5dba5, 0x3956c25b, 0x59f111f1, 0x923f82a4, 0xab1c5ed5,
   0xd807aa98, 0x12835b01, 0x243185be, 0x550c7dc3, 0x72be5d74, 0x80deb1fe, 0x9bdc06a7, 0xc19bf174,
   0xe49b69c1, 0xefbe4786, 0x0fc19dc6, 0x240ca1cc, 0x2de92c6f, 0x4a7484aa, 0x5cb0a9dc, 0x76f988da,
   0x983e5152, 0xa831c66d, 0xb00327c8, 0xbf597fc7, 0xc6e00bf3, 0xd5a79147, 0x06ca6351, 0x14292967,
   0x27b70a85, 0x2e1b2138, 0x4d2c6dfc, 0x53380d13, 0x650a7354, 0x766a0abb, 0x81c2c92e, 0x92722c85,
   0xa2bfe8a1, 0xa81a664b, 0xc24b8b70, 0xc76c51a3, 0xd192e819, 0xd6990624, 0xf40e3585, 0x106aa070,
   0x19a4c116, 0x1e376c08, 0x2748774c, 0x34b0bcb5, 0x391c0cb3, 0x4ed8aa4a, 0x5b9cca4f, 0x682e6ff3,
   0x748f82ee, 0x78a5636f, 0x84c87814, 0x8cc70208, 0x90befffa, 0xa4506ceb, 0xbef9a3f7, 0xc67178f2]

structure State where
  a : ℕ
  b : ℕ
  c : ℕ
  d : ℕ
  e : ℕ
  f : ℕ
  g : ℕ
  h : ℕ

def initial : State where
  a := 0x6a09e667
  b := 0xbb67ae85
  c := 0x3c6ef372
  d := 0xa54ff53a
  e := 0x510e527f
  f := 0x9b05688c
  g := 0x1f83d9ab
  h := 0x5be0cd19

def State.add (s t : State) : State where
  a := (s.a + t.a) % wordBound
  b := (s.b + t.b) % wordBound
  c := (s.c + t.c) % wordBound
  d := (s.d + t.d) % wordBound
  e := (s.e + t.e) % wordBound
  f := (s.f + t.f) % wordBound
  g := (s.g + t.g) % wordBound
  h := (s.h + t.h) % wordBound

def round (s : State) (constant word : ℕ) : State :=
  let t₁ := s.h + bigSigma1 s.e + choose s.e s.f s.g + constant + word
  let t₂ := bigSigma0 s.a + majority s.a s.b s.c
  ⟨(t₁ + t₂) % wordBound, s.a, s.b, s.c, (s.d + t₁) % wordBound, s.e, s.f, s.g⟩

/-- The next word of the message schedule; the words so far stand last first. -/
def nextWord (words : List ℕ) : ℕ :=
  (smallSigma1 (words.getD 1 0) + words.getD 6 0 + smallSigma0 (words.getD 14 0) +
    words.getD 15 0) % wordBound

def extend : ℕ → List ℕ → List ℕ
  | 0, words => words
  | n + 1, words => extend n (nextWord words :: words)

def wordsOf : ℕ → Bytes → List ℕ
  | 0, _ => []
  | n + 1, block => ofBe (block.take 4) :: wordsOf n (block.drop 4)

def rounds : List ℕ → List ℕ → State → State
  | constant :: ks, word :: ws, s => rounds ks ws (round s constant word)
  | _, _, s => s

def compress (s : State) (block : Bytes) : State :=
  s.add (rounds constants (extend 48 (wordsOf 16 block).reverse).reverse s)

def pad (message : Bytes) : Bytes :=
  message ++ 0x80 :: List.replicate ((119 - message.length % 64) % 64) 0 ++
    toBe 8 (8 * message.length)

def compressAll : ℕ → Bytes → State → State
  | 0, _, s => s
  | n + 1, message, s => compressAll n (message.drop 64) (compress s (message.take 64))

def State.bytes (s : State) : Bytes :=
  [s.a, s.b, s.c, s.d, s.e, s.f, s.g, s.h].flatMap (toBe 4)

def digest (message : Bytes) : Bytes :=
  let padded := pad message
  (compressAll (padded.length / 64) padded initial).bytes

@[simp] theorem length_digest (message : Bytes) : (digest message).length = 32 := by
  simp [digest, State.bytes]

end Rust.Sha256
