/-
  ObjectPool.Json.Basic

  JSON documents as values, and the text of a document without blanks.

    * `Json.record` — an object whose members are in the order of their names.
    * `Json.get?` — the member of a given name; a later one replaces an earlier one.
    * `Json.text` — the document's text.
-/

namespace ObjectPool

/-- A JSON document. A number keeps its value if it is written as a whole number of
    at most 64 bits; any other number is only known to be one. -/
inductive Json where
  | null
  | bool (b : Bool)
  | int (n : Int)
  | real
  | str (s : String)
  | arr (items : List Json)
  | obj (members : List (String × Json))

namespace Json

instance : Inhabited Json := ⟨null⟩

/-- A natural number as a document. -/
def nat (n : Nat) : Json := int n

/-- The member of a given name, the last if there are several. -/
def lookup (key : String) : List (String × Json) → Option Json
  | [] => none
  | (k, v) :: rest => (lookup key rest).or (if k = key then some v else none)

/-- The member of a given name; anything but an object has none. -/
def get? (j : Json) (key : String) : Option Json :=
  match j with
  | obj members => lookup key members
  | _ => none

/-- The member of a given name, where `null` stands for no member. -/
def field? (j : Json) (key : String) : Option Json :=
  match j.get? key with
  | some null => none
  | r => r

/-- Puts a member before the first whose name does not come earlier. -/
def insertMember (m : String × Json) : List (String × Json) → List (String × Json)
  | [] => [m]
  | x :: rest => if x.1 < m.1 then x :: insertMember m rest else m :: x :: rest

/-- An object with its members in the order of their names. -/
def record (members : List (String × Json)) : Json :=
  obj (members.foldr insertMember [])

mutual

/-- How many values a document is made of. -/
def size : Json → Nat
  | arr items => itemsSize items + 1
  | obj members => membersSize members + 1
  | _ => 1

/-- How many values the items of an array are made of. -/
def itemsSize : List Json → Nat
  | [] => 0
  | j :: rest => j.size + itemsSize rest

/-- How many values the members of an object are made of. -/
def membersSize : List (String × Json) → Nat
  | [] => 0
  | (_, v) :: rest => v.size + membersSize rest

end

/-! ## Text -/

/-- The four digits, in base sixteen, of a character below two to the sixteen. -/
def hex4 (n : Nat) : List Char :=
  [Nat.digitChar (n / 4096 % 16), Nat.digitChar (n / 256 % 16), Nat.digitChar (n / 16 % 16),
   Nat.digitChar (n % 16)]

/-- A character inside quotes: quote, backslash and control characters are escaped. -/
def escapeChar (c : Char) : List Char :=
  if c = '\x22' then ['\x5c', '\x22']
  else if c = '\x5c' then ['\x5c', '\x5c']
  else if c = '\n' then ['\x5c', 'n']
  else if c = '\t' then ['\x5c', 't']
  else if c = '\x0d' then ['\x5c', 'r']
  else if c = '\x08' then ['\x5c', 'b']
  else if c = '\x0c' then ['\x5c', 'f']
  else if c.toNat < 32 then '\x5c' :: 'u' :: hex4 c.toNat
  else [c]

/-- A text in quotes. -/
def quote (s : String) : String :=
  String.ofList ('\x22' :: (s.toList.flatMap escapeChar ++ ['\x22']))

mutual

/-- The document's text, without blanks. -/
def text : Json → String
  | null => "null"
  | bool b => if b then "true" else "false"
  | int n => toString n
  | real => "0.0"
  | str s => quote s
  | arr items => "[" ++ itemsText items ++ "]"
  | obj members => "\x7b" ++ membersText members ++ "\x7d"

/-- The items of an array, with commas between them. -/
def itemsText : List Json → String
  | [] => ""
  | [j] => j.text
  | j :: rest => j.text ++ "," ++ itemsText rest

/-- The members of an object, with commas between them. -/
def membersText : List (String × Json) → String
  | [] => ""
  | [(k, v)] => quote k ++ ":" ++ v.text
  | (k, v) :: rest => quote k ++ ":" ++ v.text ++ "," ++ membersText rest

end

end Json

end ObjectPool
