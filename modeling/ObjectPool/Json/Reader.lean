/-
  ObjectPool.Json.Reader

  Reads a JSON document. Between the tokens stand blanks, tabs and line ends;
  containers nest at most 127 deep; a text holds no raw control character, and
  its `\u` escapes make whole characters; a number that no double-precision
  number can hold is refused, as is anything behind the document.

  Every function takes the characters still to read and answers what it read
  with those left over. The document reader counts down a bound that starts
  above the number of characters, and each document takes at least one.
-/

import ObjectPool.Json.Basic

namespace ObjectPool

namespace Json

namespace Reader

/-- The characters left over once blanks are skipped. -/
def skipBlank : List Char → List Char
  | [] => []
  | c :: r => if c = ' ' ∨ c = '\n' ∨ c = '\t' ∨ c = '\x0d' then skipBlank r else c :: r

/-- The characters behind a given start. -/
def expect : List Char → List Char → Option (List Char)
  | [], r => some r
  | c :: cs, d :: r => if c = d then expect cs r else none
  | _ :: _, [] => none

/-! ## Texts -/

/-- The value of a digit in base sixteen. -/
def hexDigit (c : Char) : Option Nat :=
  if '0' ≤ c ∧ c ≤ '9' then some (c.toNat - 48)
  else if 'a' ≤ c ∧ c ≤ 'f' then some (c.toNat - 87)
  else if 'A' ≤ c ∧ c ≤ 'F' then some (c.toNat - 55)
  else none

/-- A number of four digits in base sixteen. -/
def hex : List Char → Option (Nat × List Char)
  | a :: b :: c :: d :: r => do
    let a ← hexDigit a
    let b ← hexDigit b
    let c ← hexDigit c
    let d ← hexDigit d
    pure (((a * 16 + b) * 16 + c) * 16 + d, r)
  | _ => none

/-- The character of a `\u` escape whose `\u` has been read; a character beyond
    two to the sixteen takes two escapes, and half of such a pair is refused. -/
def unicode (cs : List Char) : Option (Char × List Char) := do
  let (hi, r) ← hex cs
  if hi < 0xD800 ∨ 0xDFFF < hi then pure (Char.ofNat hi, r)
  else if 0xDC00 ≤ hi then none
  else
    let (lo, r) ← hex (← expect ['\x5c', 'u'] r)
    if lo < 0xDC00 ∨ 0xDFFF < lo then none
    else pure (Char.ofNat (0x10000 + (hi - 0xD800) * 1024 + (lo - 0xDC00)), r)

/-- The character that a one-letter escape stands for. -/
def shortEscape (c : Char) : Option Char :=
  if c = '\x22' ∨ c = '\x5c' ∨ c = '/' then some c
  else if c = 'n' then some '\n'
  else if c = 't' then some '\t'
  else if c = 'r' then some '\x0d'
  else if c = 'b' then some '\x08'
  else if c = 'f' then some '\x0c'
  else none

/-- The rest of a text whose opening quote has been read, `acc` holding what
    came before in reverse. -/
def quoted : Nat → List Char → List Char → Option (String × List Char)
  | 0, _, _ => none
  | bound + 1, acc, cs =>
    match cs with
    | [] => none
    | c :: r =>
      if c = '\x22' then some (String.ofList acc.reverse, r)
      else if c = '\x5c' then
        match r with
        | [] => none
        | 'u' :: r =>
          match unicode r with
          | some (u, r) => quoted bound (u :: acc) r
          | none => none
        | e :: r =>
          match shortEscape e with
          | some u => quoted bound (u :: acc) r
          | none => none
      else if c.toNat < 32 then none
      else quoted bound (c :: acc) r

/-! ## Numbers -/

/-- The digits at the front, as a number and their count. -/
def digits : List Char → Nat × Nat × List Char
  | cs => go 0 0 cs
where
  /-- Reads on, with `value` and `count` of the digits so far. -/
  go (value count : Nat) : List Char → Nat × Nat × List Char
    | [] => (value, count, [])
    | c :: r =>
      if '0' ≤ c ∧ c ≤ '9' then go (value * 10 + (c.toNat - 48)) (count + 1) r
      else (value, count, c :: r)

/-- The whole part of a number: no zero stands before another digit. -/
def wholePart : List Char → Option (Nat × List Char)
  | '0' :: r =>
    match r with
    | c :: _ => if '0' ≤ c ∧ c ≤ '9' then none else some (0, r)
    | [] => some (0, r)
  | cs =>
    match digits cs with
    | (_, 0, _) => none
    | (n, _, r) => some (n, r)

/-- The digits behind a point, if there is one: value, count, rest. -/
def fractionPart : List Char → Option (Option (Nat × Nat) × List Char)
  | '.' :: r =>
    match digits r with
    | (_, 0, _) => none
    | (n, k, r) => some (some (n, k), r)
  | cs => some (none, cs)

/-- The exponent, if there is one. -/
def exponentPart : List Char → Option (Option Int × List Char)
  | c :: r =>
    if c = 'e' ∨ c = 'E' then
      let (sign, r) : Int × List Char :=
        match r with
        | '-' :: r => (-1, r)
        | '+' :: r => (1, r)
        | r => (1, r)
      match digits r with
      | (_, 0, _) => none
      | (n, _, r) => some (some (sign * n), r)
    else some (none, c :: r)
  | [] => some (none, [])

/-- The least whole number that no double-precision number is near to. -/
def tooLarge : Nat := Nat.pow 2 1024 - Nat.pow 2 970

/-- Whether a double-precision number is near `mantissa * 10 ^ exponent`. -/
def holdable (mantissa : Nat) (exponent : Int) : Bool :=
  if mantissa = 0 then true
  else
    let size := (Nat.log2 mantissa : Int) + 1
    if 310 < exponent then false
    else if exponent < 0 then
      if size < 1024 then true
      else decide (mantissa < tooLarge * Nat.pow 10 (-exponent).toNat)
    else decide (mantissa * Nat.pow 10 exponent.toNat < tooLarge)

/-- A number. Whole numbers that fit 64 bits keep their value, with `-0` counted
    among the others. -/
def number (cs : List Char) : Option (Json × List Char) := do
  let (negative, cs) : Bool × List Char :=
    match cs with
    | '-' :: r => (true, r)
    | r => (false, r)
  let (n, r) ← wholePart cs
  let (fraction, r) ← fractionPart r
  let (exponent, r) ← exponentPart r
  match fraction, exponent with
  | none, none =>
    if negative = false ∧ n < UInt64.size then pure (int n, r)
    else if negative = true ∧ 0 < n ∧ Int64.minValue.toInt ≤ -n then pure (int (-n), r)
    else if holdable n 0 then pure (real, r)
    else none
  | _, _ =>
    let (f, k) := fraction.getD (0, 0)
    if holdable (n * Nat.pow 10 k + f) (exponent.getD 0 - k) then pure (real, r) else none

/-! ## Documents -/

/-- The members of an object without those that a later one replaces. -/
def dropReplaced : List (String × Json) → List (String × Json)
  | [] => []
  | (k, v) :: rest =>
    if rest.any fun m => m.1 = k then dropReplaced rest else (k, v) :: dropReplaced rest

mutual

/-- A document, blanks before it included. -/
def document : Nat → Nat → List Char → Option (Json × List Char)
  | 0, _, _ => none
  | bound + 1, depth, cs =>
    match skipBlank cs with
    | [] => none
    | c :: r =>
      if c = '\x22' then (quoted (r.length + 1) [] r).map fun (s, r) => (str s, r)
      else if c = '[' then
        match depth with
        | 0 => none
        | depth + 1 =>
          match skipBlank r with
          | ']' :: r => some (arr [], r)
          | r => (items bound depth r).map fun (js, r) => (arr js, r)
      else if c = '\x7b' then
        match depth with
        | 0 => none
        | depth + 1 =>
          match skipBlank r with
          | '\x7d' :: r => some (obj [], r)
          | r => (members bound depth r).map fun (ms, r) => (obj (dropReplaced ms), r)
      else if c = 'n' then (expect ['u', 'l', 'l'] r).map fun r => (null, r)
      else if c = 't' then (expect ['r', 'u', 'e'] r).map fun r => (bool true, r)
      else if c = 'f' then (expect ['a', 'l', 's', 'e'] r).map fun r => (bool false, r)
      else number (c :: r)

/-- The items of an array up to its end, of which there is at least one. -/
def items : Nat → Nat → List Char → Option (List Json × List Char)
  | 0, _, _ => none
  | bound + 1, depth, cs =>
    match document bound depth cs with
    | none => none
    | some (j, r) =>
      match skipBlank r with
      | ']' :: r => some ([j], r)
      | ',' :: r => (items bound depth r).map fun (js, r) => (j :: js, r)
      | _ => none

/-- The members of an object up to its end, of which there is at least one. -/
def members : Nat → Nat → List Char → Option (List (String × Json) × List Char)
  | 0, _, _ => none
  | bound + 1, depth, cs =>
    match skipBlank cs with
    | '\x22' :: r =>
      match quoted (r.length + 1) [] r with
      | none => none
      | some (k, r) =>
        match skipBlank r with
        | ':' :: r =>
          match document bound depth r with
          | none => none
          | some (j, r) =>
            match skipBlank r with
            | '\x7d' :: r => some ([(k, j)], r)
            | ',' :: r => (members bound depth r).map fun (ms, r) => ((k, j) :: ms, r)
            | _ => none
        | _ => none
    | _ => none

end

/-- How deep containers may nest. -/
def deepest : Nat := 127

end Reader

/-- The document that a text is, if it is one and nothing more. -/
def parse? (s : String) : Option Json :=
  let cs := s.toList
  match Reader.document (2 * cs.length + 2) Reader.deepest cs with
  | some (j, r) =>
    match Reader.skipBlank r with
    | [] => some j
    | _ => none
  | none => none

/-! ## Reading members -/

/-- A whole number from nought to below two to the 64. -/
def nat? : Json → Option Nat
  | int n => if 0 ≤ n ∧ n < UInt64.size then some n.toNat else none
  | _ => none

/-- A whole number of 64 bits with a sign. -/
def int64? : Json → Option Int64
  | int n =>
    if Int64.minValue.toInt ≤ n ∧ n ≤ Int64.maxValue.toInt then some (Int64.ofInt n) else none
  | _ => none

/-- A truth value. -/
def bool? : Json → Option Bool
  | bool b => some b
  | _ => none

/-- A text. -/
def str? : Json → Option String
  | str s => some s
  | _ => none

/-- The items of an array. -/
def arr? : Json → Option (List Json)
  | arr items => some items
  | _ => none

/-- The members of an object. -/
def obj? : Json → Option (List (String × Json))
  | obj members => some members
  | _ => none

/-- A member read with `read`, or `default` if there is none or it is `null`;
    `none` if the member is there and cannot be read. -/
def fieldOr {α : Type} (j : Json) (key : String) (read : Json → Option α) (default : α) :
    Option α :=
  match j.field? key with
  | none => some default
  | some v => read v

/-- A member read with `read` that may be missing or `null`. -/
def fieldOpt {α : Type} (j : Json) (key : String) (read : Json → Option α) :
    Option (Option α) :=
  j.fieldOr key (fun v => (read v).map some) none

/-- A member read with `read` that may be missing but not `null`. -/
def memberOr {α : Type} (j : Json) (key : String) (read : Json → Option α) (default : α) :
    Option α :=
  match j.get? key with
  | none => some default
  | some v => read v

/-- A member read with `read` that must be there. -/
def required {α : Type} (j : Json) (key : String) (read : Json → Option α) : Option α :=
  (j.field? key).bind read

end Json

end ObjectPool
