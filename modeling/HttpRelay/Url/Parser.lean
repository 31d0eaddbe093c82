import HttpRelay.Url.Basic
import HttpRelay.Url.Host

/-!
Reading absolute URLs. Each component is cut off in turn, from the scheme to the fragment, and
brought into its written form.
-/

namespace HttpRelay.Url

def isTabOrNewline (c : Char) : Bool := c = '\t' || c = '\n' || c = '\r'

def isC0OrSpace (c : Char) : Bool := c.val ≤ 0x20

def prepare (cs : List Char) : List Char :=
  ((((cs.dropWhile isC0OrSpace).reverse).dropWhile isC0OrSpace).reverse).filter
    (!isTabOrNewline ·)

def isLetter (c : Char) : Bool := ('a' ≤ c && c ≤ 'z') || ('A' ≤ c && c ≤ 'Z')

def isSchemeChar (c : Char) : Bool :=
  isLetter c || ('0' ≤ c && c ≤ '9') || c = '+' || c = '-' || c = '.'

def splitScheme (cs : List Char) : Option (List Char × List Char) :=
  match cs with
  | c :: _ =>
    if isLetter c then
      match cs.dropWhile isSchemeChar with
      | ':' :: rest => some (Text.lowerChars (cs.takeWhile isSchemeChar), rest)
      | _ => none
    else none
  | [] => none

def isC0 (c : Char) : Bool := c.val < 0x20 || c.val == 0x7f

def inFragmentSet (c : Char) : Bool := isC0 c || " \"<>`".toList.contains c

def inQuerySet (special : Bool) (c : Char) : Bool :=
  isC0 c || " \"#<>".toList.contains c || (special && c = '\'')

def inPathSet (c : Char) : Bool := isC0 c || " \"#<>?`\x7b\x7d".toList.contains c

def inUserSet (c : Char) : Bool := inPathSet c || "/:;=@[\\]^|".toList.contains c

def splitTail (special : Bool) (cs : List Char) :
    List Char × Option (List Char) × Option (List Char) :=
  let (cs, fragment) := match Text.splitFirst '#' cs with
    | some (front, back) => (front, some (Percent.encode inFragmentSet back))
    | none => (cs, none)
  match Text.splitFirst '?' cs with
  | some (front, back) => (front, some (Percent.encode (inQuerySet special) back), fragment)
  | none => (cs, none, fragment)

def endsAuthority (special : Bool) (c : Char) : Bool :=
  c = '/' || c = '?' || c = '#' || (special && c = '\\')

def userInfo (cs : List Char) : List Char × Option (List Char) :=
  match Text.splitFirst ':' cs with
  | none => (Percent.encode inUserSet cs, none)
  | some (user, []) => (Percent.encode inUserSet user, none)
  | some (user, password) =>
    (Percent.encode inUserSet user, some (Percent.encode inUserSet password))

def splitHost (inside : Bool) : List Char → List Char × List Char
  | [] => ([], [])
  | c :: rest =>
    if c = ':' && !inside then ([], c :: rest)
    else
      let (host, tail) := splitHost (if c = '[' then true else if c = ']' then false else inside) rest
      (c :: host, tail)

def readPort (scheme cs : List Char) : Except ParseError (Option Nat) :=
  if cs.isEmpty then .ok none
  else match Text.digitsFrom 0 cs with
    | some n =>
      if 65535 < n then .error .badPort
      else .ok (if defaultPort scheme = some n then none else some n)
    | none => .error .badPort

def readAuthority (scheme cs : List Char) (atEnd : Bool) : Except ParseError Authority := do
  let special := isSpecial scheme
  let (front, rest) := (Text.splitLast '@' cs).getD ([], cs)
  if cs = ['@'] && !atEnd then throw .emptyHost
  let (user, password) := userInfo front
  let (hostText, tail) := splitHost false rest
  if special && hostText.isEmpty then throw .emptyHost
  let host ← if special then specialHost hostText else plainHost hostText
  if host.isEmpty && !tail.isEmpty then throw .emptyHost
  let number ← readPort scheme (tail.drop 1)
  if host.isEmpty && (password.isSome || !user.isEmpty) then throw .emptyHost
  pure ⟨user, password, host, number⟩

def dotForms : List (List Char) := [".", "%2e"].map String.toList

def isSingleDot (segment : List Char) : Bool := dotForms.contains (Text.lowerChars segment)

def isDoubleDot (segment : List Char) : Bool :=
  (dotForms.flatMap fun a => dotForms.map (a ++ ·)).contains (Text.lowerChars segment)

def isSlash (special : Bool) (c : Char) : Bool := c = '/' || (special && c = '\\')

def segments (special : Bool) : List Char → List (List Char)
  | [] => [[]]
  | c :: rest =>
    if isSlash special c then [] :: segments special rest
    else match segments special rest with
      | [] => [[c]]
      | s :: ss => (c :: s) :: ss

def isDriveLetter (segment : List Char) : Bool :=
  match segment with
  | [a, b] => isLetter a && (b = ':' || b = '|')
  | _ => false

def resolve (file : Bool) (kept : List (List Char)) : List (List Char) → List (List Char)
  | [] => kept.reverse
  | s :: rest =>
    let popped := match kept with
      | [d] => if file && isDriveLetter d then kept else []
      | _ => kept.tail
    if isDoubleDot s then
      match rest with
      | [] => ([] :: popped).reverse
      | _ => resolve file popped rest
    else if isSingleDot s then
      match rest with
      | [] => ([] :: kept).reverse
      | _ => resolve file kept rest
    else
      let s := if file && kept.isEmpty && isDriveLetter s then s.take 1 ++ [':'] else s
      resolve file (s :: kept) rest

def joinSegments (ss : List (List Char)) : List Char := ss.flatMap ('/' :: ·)

def rootedPath (special file : Bool) (cs : List Char) : List Char :=
  joinSegments ((resolve file [] (segments special cs)).map (Percent.encode inPathSet))

def pathAfterAuthority (special file : Bool) (cs : List Char) : List Char :=
  match cs with
  | [] => if special then ['/'] else []
  | c :: rest => rootedPath special file (if isSlash special c then rest else cs)

/-- Splits off the authority; a backslash ends a port under any scheme. -/
def splitAuthority (special : Bool) (cs : List Char) : List Char × List Char :=
  let front := cs.takeWhile (!endsAuthority special ·)
  let back := cs.dropWhile (!endsAuthority special ·)
  let (_, port) := splitHost false (((Text.splitLast '@' front).map (·.2)).getD front)
  let extra := port.dropWhile (· ≠ '\\')
  (front.take (front.length - extra.length), extra ++ back)

def afterSlashes (scheme : List Char) (cs : List Char) : Except ParseError Url := do
  let special := isSpecial scheme
  let (front, tail) := splitAuthority special cs
  let a ← readAuthority scheme front tail.isEmpty
  let (path, query, fragment) := splitTail special tail
  pure ⟨scheme, some a, pathAfterAuthority special false path, query, fragment⟩

def fileUrl (cs : List Char) : Except ParseError Url := do
  let scheme := "file".toList
  let (front, query, fragment) := splitTail true cs
  match front with
  | a :: b :: rest =>
    if isSlash true a && isSlash true b then
      let hostText := rest.takeWhile (!isSlash true ·)
      if isDriveLetter hostText then
        pure ⟨scheme, some ⟨[], none, [], none⟩, rootedPath true true rest, query, fragment⟩
      else
        let host ← if hostText.isEmpty then pure [] else specialHost hostText
        let host := if host = "localhost".toList then [] else host
        pure ⟨scheme, some ⟨[], none, host, none⟩,
          pathAfterAuthority true true (rest.dropWhile (!isSlash true ·)), query, fragment⟩
    else
      pure ⟨scheme, some ⟨[], none, [], none⟩,
        rootedPath true true (if isSlash true a then b :: rest else front), query, fragment⟩
  | _ =>
    pure ⟨scheme, some ⟨[], none, [], none⟩,
      rootedPath true true (front.dropWhile (isSlash true ·)), query, fragment⟩

def parse (s : String) : Except ParseError Url :=
  match splitScheme (prepare s.toList) with
  | none => .error .relative
  | some (scheme, rest) =>
    if isFile scheme then fileUrl rest
    else if isSpecial scheme then afterSlashes scheme (rest.dropWhile (isSlash true ·))
    else match rest with
      | '/' :: '/' :: rest => afterSlashes scheme rest
      | '/' :: rest =>
        let (path, query, fragment) := splitTail false rest
        .ok ⟨scheme, none, rootedPath false false path, query, fragment⟩
      | _ =>
        let (path, query, fragment) := splitTail false rest
        .ok ⟨scheme, none, Percent.encode isC0 path, query, fragment⟩

end HttpRelay.Url
