namespace HttpRelay.Json

def lowerDigit (n : Nat) : Char := "0123456789abcdef".toList.getD n '0'

def escape? (c : Char) : Option String :=
  match c with
  | '"' => some "\\\""
  | '\\' => some "\\\\"
  | '\n' => some "\\n"
  | '\r' => some "\\r"
  | '\t' => some "\\t"
  | '\x08' => some "\\b"
  | '\x0c' => some "\\f"
  | c =>
    if c.val < 0x20 then
      some (String.ofList ['\\', 'u', '0', '0', lowerDigit (c.toNat / 16), lowerDigit (c.toNat % 16)])
    else none

def pushEscaped (text : String) (c : Char) : String :=
  match escape? c with
  | some e => text ++ e
  | none => text.push c

def literal (s : String) : String := (s.foldl pushEscaped "\"").push '"'

inductive Value where
  | number (n : Nat)
  | string (s : String)
  | array (items : List Value)
  | object (fields : List (String × Value))

def indent (depth : Nat) : String := String.ofList (List.replicate (2 * depth) ' ')

def block (depth : Nat) (opening closing : String) (items : List String) : String :=
  if items.isEmpty then opening ++ closing
  else opening ++ "\n" ++
    String.intercalate ",\n" (items.map (indent (depth + 1) ++ ·)) ++
    "\n" ++ indent depth ++ closing

mutual

def pretty (depth : Nat) : Value → String
  | .number n => toString n
  | .string s => literal s
  | .array items => block depth "[" "]" (prettyItems (depth + 1) items)
  | .object fields => block depth "\x7b" "\x7d" (prettyFields (depth + 1) fields)

def prettyItems (depth : Nat) : List Value → List String
  | [] => []
  | v :: rest => pretty depth v :: prettyItems depth rest

def prettyFields (depth : Nat) : List (String × Value) → List String
  | [] => []
  | (name, v) :: rest => (literal name ++ ": " ++ pretty depth v) :: prettyFields depth rest

end

end HttpRelay.Json
