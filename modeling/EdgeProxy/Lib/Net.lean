import EdgeProxy.Lib.Text

/-! # Socket addresses

`SocketAddr::from_str` of the standard library: a reader that consumes characters from the front
and must reach the end of the text.
-/

namespace Rust

inductive IpAddr where
  | v4 (octets : List ℕ)
  | v6 (groups : List ℕ)
  deriving DecidableEq

def IpAddr.isLoopback : IpAddr → Bool
  | .v4 octets => octets.head? == some 127
  | .v6 groups => groups == [0, 0, 0, 0, 0, 0, 0, 1]

structure SocketAddr where
  ip : IpAddr
  port : ℕ
  deriving DecidableEq

namespace Net

/-- `Parser::read_number`: the digits at the front, not too many of them and in range. -/
def readNumber (radix bound : ℕ) (maxDigits : Option ℕ) (allowZeroPrefix : Bool) (t : Text) :
    Option (ℕ × Text) :=
  let digits := t.takeWhile fun c => (toDigit radix c).isSome
  let rest := t.dropWhile fun c => (toDigit radix c).isSome
  if digits.isEmpty || maxDigits.any (· < digits.length) ||
      (!allowZeroPrefix && digits.head? == some '0' && 1 < digits.length) then none
  else ((digitsValue radix 0 digits).filter (· < bound)).map (·, rest)

def readGivenChar (c : Char) : Text → Option Text
  | d :: t => if c = d then some t else none
  | [] => none

/-- `Parser::read_separator`: the separator stands before every item but the first. -/
def readSeparator (c : Char) (index : ℕ) (t : Text) : Option Text :=
  if index = 0 then some t else readGivenChar c t

def readIpv4Octets : ℕ → ℕ → Text → Option (List ℕ × Text)
  | 0, _, t => some ([], t)
  | count + 1, index, t => do
    let t ← readSeparator '.' index t
    let (octet, t) ← readNumber 10 256 (some 3) false t
    let (octets, t) ← readIpv4Octets count (index + 1) t
    return (octet :: octets, t)

def readIpv4Addr (t : Text) : Option (List ℕ × Text) := readIpv4Octets 4 0 t

def ipv4Groups : List ℕ → List ℕ
  | [a, b, c, d] => [a * 256 + b, c * 256 + d]
  | _ => []

/-- `read_groups`: up to `limit` groups, with whether an IPv4 address ended them. -/
def readGroups : ℕ → ℕ → Text → List ℕ × Bool × Text
  | 0, _, t => ([], false, t)
  | limit + 1, index, t =>
    let embedded :=
      if limit = 0 then none else (readSeparator ':' index t).bind readIpv4Addr
    match embedded with
    | some (octets, t) => (ipv4Groups octets, true, t)
    | none =>
      match (readSeparator ':' index t).bind (readNumber 16 (2 ^ 16) (some 4) true) with
      | none => ([], false, t)
      | some (group, t) =>
        match readGroups limit (index + 1) t with
        | (groups, ipv4, t) => (group :: groups, ipv4, t)

def readIpv6Addr (t : Text) : Option (List ℕ × Text) :=
  match readGroups 8 0 t with
  | (head, headIpv4, t) =>
    if head.length = 8 then some (head, t)
    else if headIpv4 then none
    else do
      let t ← readGivenChar ':' t
      let t ← readGivenChar ':' t
      match readGroups (7 - head.length) 0 t with
      | (tail, _, t) =>
        return (head ++ List.replicate (8 - head.length - tail.length) 0 ++ tail, t)

def readPort (t : Text) : Option (ℕ × Text) :=
  (readGivenChar ':' t).bind (readNumber 10 (2 ^ 16) none true)

def readSocketAddrV4 (t : Text) : Option (SocketAddr × Text) := do
  let (octets, t) ← readIpv4Addr t
  let (port, t) ← readPort t
  return (⟨.v4 octets, port⟩, t)

def readScopeId (t : Text) : Text :=
  match (readGivenChar '%' t).bind (readNumber 10 (2 ^ 32) none true) with
  | some (_, rest) => rest
  | none => t

def readSocketAddrV6 (t : Text) : Option (SocketAddr × Text) := do
  let t ← readGivenChar '[' t
  let (groups, t) ← readIpv6Addr t
  let t ← readGivenChar ']' (readScopeId t)
  let (port, t) ← readPort t
  return (⟨.v6 groups, port⟩, t)

end Net

/-- `str::parse::<SocketAddr>`. -/
def parseSocketAddr (t : Text) : Option SocketAddr :=
  match (Net.readSocketAddrV4 t).orElse fun _ => Net.readSocketAddrV6 t with
  | some (address, []) => some address
  | _ => none

example : parseSocketAddr "[::1]:80".toList = some ⟨.v6 [0, 0, 0, 0, 0, 0, 0, 1], 80⟩ := by
  decide

end Rust
