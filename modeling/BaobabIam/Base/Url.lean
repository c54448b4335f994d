import BaobabIam.Base.Text

/-! The parts of a URL and the conditions under which a text is one. Percent
escapes are checked and kept as they are written: no reader here looks at the
bytes they stand for. -/

structure Url where
  scheme : Text
  opaquePart : Text
  user : Option Text
  host : Text
  path : Text
  rawQuery : Text
  forceQuery : Bool
  fragment : Text
  deriving DecidableEq, Repr

namespace Url

def cut (c : Char) : Text → Text × Option Text
  | [] => ([], none)
  | x :: t => if x = c then ([], some t) else ((x :: (cut c t).1), (cut c t).2)

def cutLast (c : Char) (t : Text) : Option (Text × Text) :=
  match cut c t.reverse with
  | (_, none) => none
  | (after, some before) => some (before.reverse, after.reverse)

def splitBefore (pattern : Text) : Text → Option (Text × Text)
  | [] => none
  | x :: t =>
    if pattern.isPrefixOf (x :: t) then some ([], x :: t)
    else (splitBefore pattern t).map (fun p => (x :: p.1, p.2))

def isAlpha (c : Char) : Bool := ('a' ≤ c && c ≤ 'z') || ('A' ≤ c && c ≤ 'Z')

def isAlnum (c : Char) : Bool := isAlpha c || Text.isDigit c

inductive Part where
  | path | fragment | userinfo | host | zone
  deriving DecidableEq

def hostChar (c : Char) : Bool := isAlnum c || ("!$&'()*+,;=:[]<>\"-_.~".toList).contains c

/-- Escapes are complete, and a host escapes nothing but other bytes than ASCII,
apart from the percent sign. -/
def validEscapes (part : Part) : Text → Bool
  | [] => true
  | '%' :: a :: b :: t =>
    (match Text.hexValue? a, Text.hexValue? b with
      | some x, some y =>
        match part with
        | .host => 8 ≤ x || (x == 2 && y == 5)
        | .zone => (x == 2 && y == 5) || 16 * x + y == 32 || 8 ≤ x || hostChar (Char.ofNat (16 * x + y))
        | _ => true
      | _, _ => false) && validEscapes part t
  | c :: t =>
    c != '%' &&
      (match part with
        | .host | .zone => 128 ≤ c.toNat || hostChar c
        | _ => true) && validEscapes part t

def validOptionalPort : Text → Bool
  | [] => true
  | c :: t => c == ':' && t.all Text.isDigit

def userinfoChar (c : Char) : Bool := isAlnum c || ("-._:~!$&'()*+,;=%@".toList).contains c

inductive SchemeResult where
  | found (scheme rest : Text)
  | absent
  | malformed

def getScheme : Text → Text → SchemeResult
  | _, [] => .absent
  | acc, c :: t =>
    if isAlpha c then getScheme (acc ++ [c]) t
    else if c = ':' then (if acc = [] then .malformed else .found acc t)
    else if Text.isDigit c || c = '+' || c = '-' || c = '.' then
      (if acc = [] then .absent else getScheme (acc ++ [c]) t)
    else .absent

/-- A bracketed address, possibly with a zone, or a name, then a port. -/
def validHost (host : Text) : Bool :=
  match host with
  | '[' :: _ =>
    match cutLast ']' host with
    | none => false
    | some (before, port) =>
      validOptionalPort port &&
        match splitBefore "%25" before with
        | none => validEscapes .host host
        | some (address, zone) => validEscapes .host address && validEscapes .zone zone &&
            validEscapes .host (']' :: port)
  | _ =>
    (match cutLast ':' host with
      | none => true
      | some (_, port) => port.all Text.isDigit) && validEscapes .host host

def parseAuthority (authority : Text) : Option (Option Text × Text) :=
  match cutLast '@' authority with
  | none => if validHost authority then some (none, authority) else none
  | some (userinfo, host) =>
    if validHost host && userinfo.all userinfoChar && validEscapes .userinfo userinfo then
      some (some userinfo, host)
    else none

/-- What follows the scheme, without query and fragment. -/
def parseRest (scheme rest : Text) (rawQuery : Text) (forceQuery : Bool) : Option Url :=
  match rest with
  | '/' :: '/' :: t =>
    if scheme = [] && t.head? = some '/' then
      (if validEscapes .path rest then some ⟨scheme, [], none, [], rest, rawQuery, forceQuery, []⟩ else none)
    else
      let (authority, path) := cut '/' t
      match parseAuthority authority with
      | none => none
      | some (user, host) =>
        let path := match path with
          | none => []
          | some p => '/' :: p
        if validEscapes .path path then some ⟨scheme, [], user, host, path, rawQuery, forceQuery, []⟩
        else none
  | '/' :: _ =>
    if validEscapes .path rest then some ⟨scheme, [], none, [], rest, rawQuery, forceQuery, []⟩ else none
  | _ =>
    if scheme ≠ [] then some ⟨scheme, rest, none, [], [], rawQuery, forceQuery, []⟩
    else if (cut '/' rest).1.contains ':' then none
    else if validEscapes .path rest then some ⟨scheme, [], none, [], rest, rawQuery, forceQuery, []⟩
    else none

def parseUrl (raw : Text) : Option Url :=
  if raw.any (fun c => c.toNat < 32 || c.toNat = 127) then none
  else if raw = ['*'] then some ⟨[], [], none, [], raw, [], false, []⟩
  else
    let split (scheme rest : Text) : Option Url :=
      match cut '?' rest with
      | (rest, none) => parseRest scheme rest [] false
      | (rest, some query) => parseRest scheme rest query (query = [])
    match getScheme [] raw with
    | .malformed => none
    | .found scheme rest => split (scheme.map Char.toLower) rest
    | .absent => split [] raw

def parse (raw : Text) : Option Url :=
  match cut '#' raw with
  | (u, none) => parseUrl u
  | (u, some fragment) =>
    (parseUrl u).bind (fun url =>
      if validEscapes .fragment fragment then some { url with fragment := fragment } else none)

def hostname (u : Url) : Text :=
  match u.host with
  | '[' :: t =>
    match cut ']' t with
    | (name, some _) => name
    | (_, none) => u.host
  | _ =>
    match cutLast ':' u.host with
    | none => u.host
    | some (name, _) => name

example : (parse "https://issuer.example:8443/a?x=1#f").map
    (fun u => (u.scheme, u.hostname, u.path, u.rawQuery, u.fragment)) =
      some ("https".toList, "issuer.example".toList, "/a".toList, "x=1".toList, "f".toList) := by
  decide +kernel

end Url
