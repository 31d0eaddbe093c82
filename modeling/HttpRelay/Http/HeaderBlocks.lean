import HttpRelay.Http.Head

/-!
Header blocks: heads as groups of fields with the status code first, and reading such groups
back from the text of several heads.
-/

namespace HttpRelay.HeaderBlocks

def statusKey : String := "http_response_code"

def group (head : Head) : Fields := (statusKey, toString head.status) :: head.headers

def dropReturns (line : List Char) : List Char := (line.reverse.dropWhile (· = '\r')).reverse

def splitField : List Char → Option (List Char × List Char)
  | ':' :: ' ' :: rest => some ([], rest)
  | c :: rest => (splitField rest).map fun (name, value) => (c :: name, value)
  | [] => none

def lineField? (line : List Char) : Option (String × String) :=
  match splitField line with
  | some (name, value) => some (String.ofList name, String.ofList value)
  | none => (Text.splitAll ' ' line)[1]?.map fun code => (statusKey, String.ofList code)

def close (held : Fields) : List Fields := if held.isEmpty then [] else [held]

def parseLines (held : Fields) : List (List Char) → List Fields
  | [] => close held
  | line :: rest =>
    let line := dropReturns line
    if line.isEmpty then close held ++ parseLines [] rest
    else parseLines (held ++ (lineField? line).toList) rest

def parse (s : String) : List Fields := parseLines [] (Text.splitAll '\n' s.toList)

end HttpRelay.HeaderBlocks
