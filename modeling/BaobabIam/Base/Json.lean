import BaobabIam.Base.Text

/-! JSON documents, their compact text and a strict reader of texts.
The writer escapes as a browser-safe encoder does: the characters of HTML, the
control characters and the two line separators. Numbers keep their literal. -/
namespace Wire

inductive Json where
  | null
  | bool (b : Bool)
  | num (literal : Text)
  | str (s : Text)
  | arr (xs : List Json)
  | obj (ms : List (Text × Json))

abbrev Members := List (Text × Json)

def escape (c : Char) : Text :=
  if c = '"' then ['\\', '"']
  else if c = '\\' then ['\\', '\\']
  else if c.toNat = 8 then ['\\', 'b']
  else if c.toNat = 12 then ['\\', 'f']
  else if c.toNat = 10 then ['\\', 'n']
  else if c.toNat = 13 then ['\\', 'r']
  else if c.toNat = 9 then ['\\', 't']
  else if c.toNat < 32 ∨ c = '<' ∨ c = '>' ∨ c = '&' ∨ c.toNat = 0x2028 ∨ c.toNat = 0x2029 then
    '\\' :: 'u' :: Text.padded 16 4 c.toNat
  else [c]

/-- The escaped characters and the closing quote, followed by `k`. -/
def writeString : Text → Text → Text
  | [], k => '"' :: k
  | c :: s, k => escape c ++ writeString s k

/- Every writer takes the text that follows, so that reading back needs no
cutting of appended texts. -/
mutual
def write : Json → Text → Text
  | .null, k => 'n' :: 'u' :: 'l' :: 'l' :: k
  | .bool true, k => 't' :: 'r' :: 'u' :: 'e' :: k
  | .bool false, k => 'f' :: 'a' :: 'l' :: 's' :: 'e' :: k
  | .num literal, k => literal ++ k
  | .str s, k => '"' :: writeString s k
  | .arr [], k => '[' :: ']' :: k
  | .arr (x :: xs), k => '[' :: write x (writeElems xs k)
  | .obj [], k => '{' :: '}' :: k
  | .obj ((name, x) :: ms), k => '{' :: '"' :: writeString name (':' :: write x (writeMembers ms k))
def writeElems : List Json → Text → Text
  | [], k => ']' :: k
  | x :: xs, k => ',' :: write x (writeElems xs k)
def writeMembers : List (Text × Json) → Text → Text
  | [], k => '}' :: k
  | (name, x) :: ms, k => ',' :: '"' :: writeString name (':' :: write x (writeMembers ms k))
end

def render (j : Json) : Text := write j []

def isSpace (c : Char) : Bool := c = ' ' || c.toNat = 9 || c.toNat = 10 || c.toNat = 13

def skipSpace : Text → Text
  | [] => []
  | c :: t => if isSpace c then skipSpace t else c :: t

def hex4? : Char → Char → Char → Char → Option Nat
  | a, b, c, d => Text.numeral 16 Text.hexValue? 0 [a, b, c, d]

def expect (word t : Text) : Option Text :=
  if word.isPrefixOf t then some (t.drop word.length) else none

def unescape? (c : Char) : Option Char :=
  if c = '"' ∨ c = '\\' ∨ c = '/' then some c
  else if c = 'b' then some (Char.ofNat 8)
  else if c = 'f' then some (Char.ofNat 12)
  else if c = 'n' then some (Char.ofNat 10)
  else if c = 'r' then some (Char.ofNat 13)
  else if c = 't' then some (Char.ofNat 9)
  else none

/-- Read one character of a string: none in the first place is its closing
quote. Half of a surrogate pair reads as U+FFFD. -/
def readChar : Text → Option (Option Char × Text)
  | [] => none
  | c :: t =>
    if c = '"' then some (none, t)
    else if c = '\\' then
      match t with
      | [] => none
      | e :: t =>
        if e = 'u' then
          match t with
          | a :: b :: c :: d :: t =>
            match hex4? a b c d with
            | none => none
            | some n =>
              if 0xD800 ≤ n ∧ n < 0xE000 then readSurrogate n t
              else some (some (Char.ofNat n), t)
          | _ => none
        else (unescape? e).map (fun u => (some u, t))
    else if c.toNat < 32 then none
    else some (some c, t)
where
  /-- The other half must follow, else the first half alone is replaced. -/
  readSurrogate (n : Nat) : Text → Option (Option Char × Text)
    | '\\' :: 'u' :: a :: b :: c :: d :: t =>
      match hex4? a b c d with
      | none => none
      | some m =>
        if n < 0xDC00 ∧ 0xDC00 ≤ m ∧ m < 0xE000 then
          some (some (Char.ofNat (0x10000 + (n - 0xD800) * 0x400 + (m - 0xDC00))), t)
        else some (some (Char.ofNat 0xFFFD), '\\' :: 'u' :: a :: b :: c :: d :: t)
    | t => some (some (Char.ofNat 0xFFFD), t)

def readString : Nat → Text → Option (Text × Text)
  | 0, _ => none
  | n + 1, t =>
    match readChar t with
    | none => none
    | some (none, t) => some ([], t)
    | some (some c, t) => (readString n t).map (fun p => (c :: p.1, p.2))

def readDigits (t : Text) : Option (Text × Text) :=
  match t.takeWhile Text.isDigit with
  | [] => none
  | ds => some (ds, t.dropWhile Text.isDigit)

def readInteger (t : Text) : Option (Text × Text) :=
  match readDigits t with
  | some ('0' :: d :: _, _) => let _ := d; none
  | r => r

def readFraction : Text → Option (Text × Text)
  | '.' :: t => (readDigits t).map (fun p => ('.' :: p.1, p.2))
  | t => some ([], t)

def readExponent : Text → Option (Text × Text)
  | e :: t =>
    if e = 'e' ∨ e = 'E' then
      match t with
      | '+' :: t => (readDigits t).map (fun p => (e :: '+' :: p.1, p.2))
      | '-' :: t => (readDigits t).map (fun p => (e :: '-' :: p.1, p.2))
      | t => (readDigits t).map (fun p => (e :: p.1, p.2))
    else some ([], e :: t)
  | [] => some ([], [])

/-- A number literal: sign, integer without leading zeros, fraction, exponent. -/
def readNumber (t : Text) : Option (Text × Text) := do
  let (sign, t) := match t with
    | '-' :: t => (['-'], t)
    | t => ([], t)
  let (whole, t) ← readInteger t
  let (fraction, t) ← readFraction t
  let (exponent, t) ← readExponent t
  some (sign ++ whole ++ fraction ++ exponent, t)

mutual
def readValue : Nat → Text → Option (Json × Text)
  | 0, _ => none
  | n + 1, t =>
    match skipSpace t with
    | [] => none
    | c :: t =>
      if c = '"' then (readString n t).map (fun p => (.str p.1, p.2))
      else if c = '{' then
        match skipSpace t with
        | [] => none
        | d :: t =>
          if d = '}' then some (.obj [], t)
          else (readMember n (d :: t)).map (fun p => (.obj p.1, p.2))
      else if c = '[' then
        match skipSpace t with
        | [] => none
        | d :: t =>
          if d = ']' then some (.arr [], t)
          else
            match readValue n (d :: t) with
            | none => none
            | some (x, t) => (readElems n t).map (fun p => (.arr (x :: p.1), p.2))
      else if c = 'n' then (expect ['u', 'l', 'l'] t).map (fun t => (.null, t))
      else if c = 't' then (expect ['r', 'u', 'e'] t).map (fun t => (.bool true, t))
      else if c = 'f' then (expect ['a', 'l', 's', 'e'] t).map (fun t => (.bool false, t))
      else (readNumber (c :: t)).map (fun p => (.num p.1, p.2))
def readElems : Nat → Text → Option (List Json × Text)
  | 0, _ => none
  | n + 1, t =>
    match skipSpace t with
    | [] => none
    | c :: t =>
      if c = ']' then some ([], t)
      else if c = ',' then
        match readValue n t with
        | none => none
        | some (x, t) => (readElems n t).map (fun p => (x :: p.1, p.2))
      else none
def readMember : Nat → Text → Option (List (Text × Json) × Text)
  | 0, _ => none
  | n + 1, t =>
    match skipSpace t with
    | [] => none
    | c :: t =>
      if c = '"' then
        match readString n t with
        | none => none
        | some (name, t) =>
          match skipSpace t with
          | [] => none
          | d :: t =>
            if d = ':' then
              match readValue n t with
              | none => none
              | some (x, t) => (readMembers n t).map (fun p => ((name, x) :: p.1, p.2))
            else none
      else none
def readMembers : Nat → Text → Option (List (Text × Json) × Text)
  | 0, _ => none
  | n + 1, t =>
    match skipSpace t with
    | [] => none
    | c :: t =>
      if c = '}' then some ([], t)
      else if c = ',' then readMember n t
      else none
end

def parse (t : Text) : Option Json :=
  match readValue (t.length + 1) t with
  | some (j, rest) => if skipSpace rest = [] then some j else none
  | none => none

end Wire
