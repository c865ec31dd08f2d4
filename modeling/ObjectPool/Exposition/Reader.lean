/-
  ObjectPool.Exposition.Reader

  The exposition of metrics as a collector reads it.

    * A text is cut at its line ends. A line is a help, a kind, a sample, or says
      nothing: it is blank, or a remark behind a `#`.
    * Tokens may have blanks before them. A label's value stands in quotes, with
      backslash, quote and line end escaped, and the last label of a sample may
      have a comma behind it.
    * A metric is its help, its kind and its sample, all three under one name.

  Samples are read whose value is a whole number and that bear no time.
-/

import ObjectPool.Exposition

namespace ObjectPool

namespace Exposition

/-- A metric as it is read. -/
structure Reading where
  name : String
  help : String
  kind : Kind
  labels : List Label
  value : Nat
  deriving DecidableEq

/-- What is read off the front of a text, with the rest of the text. -/
abbrev Front (α : Type) := List Char → Option (α × List Char)

/-! ## Tokens -/

/-- The characters between two tokens. -/
def isBlank (c : Char) : Bool := c == ' ' || c == '\t'

/-- A text without the blanks at its front. -/
def trim (s : List Char) : List Char := s.dropWhile isBlank

/-- The text behind a mark. -/
def past? (mark : Char) (s : List Char) : Option (List Char) :=
  match trim s with
  | [] => none
  | c :: cs => if c = mark then some cs else none

/-- A name made of such characters, as long as it goes. -/
def name? (letter : Char → Bool) : Front String := fun s =>
  let word := (trim s).takeWhile letter
  if isName letter word then some (String.ofList word, (trim s).dropWhile letter) else none

/-- A whole number, as long as its digits go. -/
def number? : Front Nat := fun s =>
  match (trim s).takeWhile Char.isDigit with
  | [] => none
  | d :: ds => some (Nat.ofDigitChars 10 (d :: ds) 0, (trim s).dropWhile Char.isDigit)

/-- The character that an escape stands for. -/
def unescape? (c : Char) : Option Char :=
  if c = 'n' then some '\n' else if c = '\x5c' ∨ c = '\x22' then some c else none

/-- A text up to the quote that closes it, its first character escaped or not. -/
def quoted? : Bool → Front (List Char)
  | _, [] => none
  | true, c :: cs => do
    let d ← unescape? c
    let (value, rest) ← quoted? false cs
    pure (d :: value, rest)
  | false, c :: cs =>
    if c = '\x22' then some ([], cs)
    else if c = '\x5c' then quoted? true cs
    else do
      let (value, rest) ← quoted? false cs
      pure (c :: value, rest)

/-- The text of a help, its first character escaped or not. -/
def helping? : Bool → List Char → Option (List Char)
  | false, [] => some []
  | true, [] => none
  | true, c :: cs => do
    let d ← unescape? c
    let rest ← helping? false cs
    pure (d :: rest)
  | false, c :: cs =>
    if c = '\x5c' then helping? true cs else (helping? false cs).map (c :: ·)

/-! ## Labels -/

/-- A label: its name, and its value in quotes. -/
def label? : Front Label := fun s => do
  let (name, s) ← name? inLabelName s
  let s ← past? '=' s
  let s ← past? '\x22' s
  let (value, s) ← quoted? false s
  pure ((name, String.ofList value), s)

theorem trim_shortens (s : List Char) : (trim s).length ≤ s.length :=
  (List.dropWhile_sublist _).length_le

theorem past?_shortens {mark : Char} {s rest : List Char} (h : past? mark s = some rest) :
    rest.length < s.length := by
  have ht := trim_shortens s
  unfold past? at h
  split at h
  · simp at h
  · next c cs hc =>
    rw [hc] at ht
    simp only [Option.ite_none_right_eq_some, Option.some.injEq] at h
    obtain ⟨-, rfl⟩ := h
    simp only [List.length_cons] at ht
    omega

theorem name?_shortens {letter : Char → Bool} {s rest : List Char} {name : String}
    (h : name? letter s = some (name, rest)) : rest.length ≤ s.length := by
  simp only [name?, Option.ite_none_right_eq_some, Option.some.injEq, Prod.mk.injEq] at h
  obtain ⟨-, -, rfl⟩ := h
  exact Nat.le_trans (List.dropWhile_sublist _).length_le (trim_shortens s)

theorem quoted?_shortens {s : List Char} : ∀ {escaped : Bool} {v rest : List Char},
    quoted? escaped s = some (v, rest) → rest.length ≤ s.length := by
  induction s with
  | nil => intro escaped v rest h; simp [quoted?] at h
  | cons c cs ih =>
    intro escaped v rest h
    have step : ∀ {e : Bool} {w : List Char}, quoted? e cs = some (w, rest) →
        rest.length ≤ (c :: cs).length := fun hq => Nat.le_succ_of_le (ih hq)
    cases escaped with
    | true =>
      simp only [quoted?, Option.bind_eq_bind, Option.bind_eq_some_iff] at h
      obtain ⟨d, -, ⟨w, r⟩, hq, h⟩ := h
      obtain ⟨-, rfl⟩ : d :: w = v ∧ r = rest := by simpa using h
      exact step hq
    | false =>
      simp only [quoted?] at h
      split at h
      · obtain ⟨-, rfl⟩ : [] = v ∧ cs = rest := by simpa using h
        exact Nat.le_succ _
      · split at h
        · exact step h
        · simp only [Option.bind_eq_bind, Option.bind_eq_some_iff] at h
          obtain ⟨⟨w, r⟩, hq, h⟩ := h
          obtain ⟨-, rfl⟩ : c :: w = v ∧ r = rest := by simpa using h
          exact step hq

/-- Reading a label takes something off a text. -/
theorem label?_shortens {s rest : List Char} {l : Label} (h : label? s = some (l, rest)) :
    rest.length < s.length := by
  simp only [label?, Option.bind_eq_bind, Option.bind_eq_some_iff] at h
  obtain ⟨⟨name, s₁⟩, hname, s₂, heq, s₃, hquote, ⟨v, s₄⟩, hv, h⟩ := h
  obtain ⟨-, rfl⟩ : _ = l ∧ s₄ = rest := by simpa using h
  have h₁ := name?_shortens hname
  have h₂ : s₂.length < s₁.length := past?_shortens heq
  have h₃ := past?_shortens hquote
  have h₄ := quoted?_shortens hv
  omega

/-- The labels up to the brace that closes them, parted by commas. -/
def labels? (s : List Char) : Option (List Label × List Char) :=
  match past? '\x7d' s with
  | some rest => some ([], rest)
  | none =>
    match _hl : label? s with
    | none => none
    | some (l, rest) =>
      match _hc : past? ',' rest with
      | some more => (labels? more).map fun r => (l :: r.1, r.2)
      | none => (past? '\x7d' rest).map fun r => ([l], r)
termination_by s.length
decreasing_by
  have h₁ := label?_shortens _hl
  have h₂ := past?_shortens _hc
  omega

/-- The labels of a sample, which may have none. -/
def labelSet? : Front (List Label) := fun s =>
  match past? '\x7b' s with
  | some rest => labels? rest
  | none => some ([], s)

/-! ## Lines -/

/-- What a line says. -/
inductive Line where
  | help (name help : String)
  | kind (name : String) (kind : Kind)
  | sample (name : String) (labels : List Label) (value : Nat)

/-- The kind of a name. -/
def Kind.ofLabel? (s : List Char) : Option Kind :=
  [counter, gauge].find? fun k => k.label.toList == s

/-- A line behind its `#`: nothing unless it names a help or a kind. -/
def hashed? (s : List Char) : Option (List Line) :=
  let word := (trim s).takeWhile fun c => !isBlank c
  let rest := (trim s).dropWhile fun c => !isBlank c
  if word = "HELP".toList then do
    let (name, s) ← name? inMetricName rest
    let help ← helping? false (trim s)
    pure [.help name (String.ofList help)]
  else if word = "TYPE".toList then do
    let (name, s) ← name? inMetricName rest
    let kind ← Kind.ofLabel? (trim s)
    pure [.kind name kind]
  else some []

/-- A sample with nothing behind its value. -/
def sample? (s : List Char) : Option (List Line) := do
  let (name, s) ← name? inMetricName s
  let (labels, s) ← labelSet? s
  let (value, s) ← number? s
  if trim s = [] then pure [.sample name labels value] else none

/-- What a line says, if it can be read. -/
def line? (s : List Char) : Option (List Line) :=
  match trim s with
  | [] => some []
  | c :: cs => if c = '#' then hashed? cs else sample? (c :: cs)

/-! ## Texts -/

/-- A text cut at its line ends, the last of which closes it. -/
def lines? : List Char → Option (List (List Char))
  | [] => some []
  | c :: cs =>
    if c = '\n' then (lines? cs).map ([] :: ·)
    else
      match lines? cs with
      | some (l :: ls) => some ((c :: l) :: ls)
      | _ => none

/-- The metrics that lines tell of. -/
def metrics? : List Line → Option (List Reading)
  | [] => some []
  | .help name help :: .kind name₁ kind :: .sample name₂ labels value :: rest =>
    if name₁ = name ∧ name₂ = name then
      (metrics? rest).map (⟨name, help, kind, labels, value⟩ :: ·)
    else none
  | _ => none

/-- The metrics that a text tells of. -/
def read? (s : List Char) : Option (List Reading) := do
  let ls ← lines? s
  let told ← ls.mapM line?
  metrics? told.flatten

end Exposition

end ObjectPool
