/-
  ObjectPool.Proofs.ReadBack

  The exposition of a pool's metrics can be read back. The reader undoes what the writer does, token
  by token: a name ends where a character comes that no name has, an escaped value ends at its first
  bare quote, and no line contains a line end. So a text tells the thirteen metrics with their
  values, provided that a number of 53 binary digits holds them, and on every sample the same
  labels.

    * `Family.Readable` — a metric whose lines can be told apart.
    * `read?_text` — what is written of such metrics is what is read.
    * `Written` — a text of a pool's metrics, with the labels in whatever order.
    * `Tells` — the thirteen metrics, each with its value and all with the same labels.
    * `metrics_read_back` — the main statement.
-/

import ObjectPool.Exposition.Reader
import Mathlib.Data.List.Nodup
import Mathlib.Data.List.Perm.Basic
import Mathlib.Data.List.TakeWhile
import Mathlib.Tactic.ByContra
import Mathlib.Tactic.SplitIfs

namespace ObjectPool

namespace Exposition

variable {letter : Char → Bool} {c : Char} {s w rest : List Char} {l : Label} {ls : List Label}
  {f : Family} {fs : List Family}

/-! ## Tokens -/

theorem trim_cons (h : isBlank c = false) : trim (c :: s) = c :: s := by
  simp [trim, h]

theorem trim_blank : trim (' ' :: s) = trim s := rfl

@[simp] theorem past?_mark (h : isBlank c = false) : past? c (c :: s) = some s := by
  simp [past?, trim_cons h]

theorem past?_other {mark : Char} (h : isBlank c = false) (hne : c ≠ mark) :
    past? mark (c :: s) = none := by
  simp [past?, trim_cons h, hne]

/-- A name begins with one of its letters and has no others. -/
theorem isName_cases (h : isName letter w = true) :
    ∃ c cs, w = c :: cs ∧ c.isDigit = false ∧ ∀ d ∈ w, letter d = true := by
  cases w with
  | nil => simp [isName] at h
  | cons c cs =>
    simp only [isName, Bool.and_eq_true, Bool.not_eq_true', List.all_eq_true] at h
    exact ⟨c, cs, rfl, h.1.1, List.forall_mem_cons.2 ⟨h.1.2, h.2⟩⟩

theorem isBlank_of_letter (h : inMetricName c = true) : isBlank c = false := by
  by_contra hb
  simp only [isBlank, Bool.not_eq_false, Bool.or_eq_true, beq_iff_eq] at hb
  obtain rfl | rfl := hb <;> exact absurd h (by decide)

/-- What is behind a name does not go on with a letter. -/
theorem name?_append (rest : List Char) (hname : isName letter w = true)
    (hblank : ∀ d, letter d = true → isBlank d = false) (hc : letter c = false) :
    name? letter (w ++ c :: rest) = some (String.ofList w, c :: rest) := by
  obtain ⟨d, ds, rfl, -, hall⟩ := isName_cases hname
  have htrim : trim (d :: ds ++ c :: rest) = d :: ds ++ c :: rest :=
    trim_cons (hblank d (hall d List.mem_cons_self))
  simp only [name?, htrim, List.takeWhile_append_of_pos hall, List.dropWhile_append_of_pos hall,
    List.takeWhile_cons, List.dropWhile_cons, hc, Bool.false_eq_true, if_false, List.append_nil,
    hname, if_true]

theorem number?_digits (n : Nat) : number? (' ' :: digits n) = some (n, []) := by
  have hdigit : ∀ d ∈ digits n, d.isDigit = true := fun d hd =>
    Nat.isDigit_of_mem_toDigits (by decide) (by decide) hd
  obtain ⟨d, ds, hds⟩ : ∃ d ds, digits n = d :: ds :=
    List.exists_cons_of_ne_nil Nat.toDigits_ne_nil
  have hd : isBlank d = false := by
    have hd := hdigit d (hds ▸ List.mem_cons_self)
    by_contra hb
    simp only [isBlank, Bool.not_eq_false, Bool.or_eq_true, beq_iff_eq] at hb
    obtain rfl | rfl := hb <;> exact absurd hd (by decide)
  have htrim : trim (' ' :: digits n) = digits n := by
    rw [trim_blank, hds, trim_cons hd]
  have htake : (digits n).takeWhile Char.isDigit = d :: ds :=
    (List.takeWhile_eq_self_iff.mpr hdigit).trans hds
  have hdrop : (digits n).dropWhile Char.isDigit = [] := List.dropWhile_eq_nil_iff.mpr hdigit
  have hvalue : Nat.ofDigitChars 10 (d :: ds) 0 = n := hds ▸ Nat.ofDigitChars_ten_toDigits
  simp only [number?, htrim, htake, hdrop, hvalue]

/-- A character of a value, however it is written, is read as itself. -/
theorem quoted?_escapeChar (c : Char) (s : List Char) :
    quoted? false (escapeChar c ++ s) = (quoted? false s).map fun r => (c :: r.1, r.2) := by
  have hmap : ((quoted? false s).bind fun r => some (c :: r.1, r.2)) =
      (quoted? false s).map fun r => (c :: r.1, r.2) := by
    cases quoted? false s <;> rfl
  unfold escapeChar
  split_ifs with hslash hquote hend
  · subst hslash; simpa [quoted?, unescape?] using hmap
  · subst hquote; simpa [quoted?, unescape?] using hmap
  · subst hend; simpa [quoted?, unescape?] using hmap
  · simpa [quoted?, hslash, hquote] using hmap

/-- A value in quotes ends at the first quote that is not escaped. -/
theorem quoted?_escaped (v : List Char) :
    quoted? false (v.flatMap escapeChar ++ '\x22' :: rest) = some (v, rest) := by
  induction v with
  | nil => simp [quoted?]
  | cons c v ih =>
    rw [List.flatMap_cons, List.append_assoc, quoted?_escapeChar, ih]
    rfl

/-- A help with nothing to escape stands for itself. -/
theorem helping?_plain (h : '\x5c' ∉ s) : helping? false s = some s := by
  induction s with
  | nil => rfl
  | cons c s ih =>
    obtain ⟨hc, hs⟩ : '\x5c' ≠ c ∧ '\x5c' ∉ s := by simpa using h
    simp [helping?, Ne.symm hc, ih hs]

/-! ## Labels -/

theorem label?_labelText (rest : List Char) (h : isName inLabelName l.1.toList = true) :
    label? (labelText l ++ rest) = some (l, rest) := by
  have hblank : ∀ d, inLabelName d = true → isBlank d = false := fun d hd =>
    isBlank_of_letter (by simp [inMetricName, hd])
  have hname := name?_append ('\x22' :: (l.2.toList.flatMap escapeChar ++ '\x22' :: rest)) h hblank
    (show inLabelName '=' = false from by decide)
  simp only [label?, labelText, List.append_assoc, List.cons_append, List.nil_append, hname,
    Option.bind_eq_bind, Option.bind_some, past?_mark (show isBlank '=' = false from by decide),
    past?_mark (show isBlank '\x22' = false from by decide), quoted?_escaped,
    String.ofList_toList, Option.pure_def]

/-- A label does not begin like the end of the labels. -/
theorem past?_labelText (h : isName inLabelName l.1.toList = true) :
    past? '\x7d' (labelText l ++ rest) = none := by
  obtain ⟨c, cs, hl, -, hall⟩ := isName_cases h
  have hc := hall c (hl ▸ List.mem_cons_self)
  have hmark : c ≠ '\x7d' := by rintro rfl; exact absurd hc (by decide)
  simp only [labelText, hl, List.cons_append]
  exact past?_other (isBlank_of_letter (by simp [inMetricName, hc])) hmark

theorem labels?_last (hend : past? '\x7d' s = none) (hl : label? s = some (l, '\x7d' :: rest)) :
    labels? s = some ([l], rest) := by
  rw [labels?, hend]
  simp only
  split
  · next h => simp [hl] at h
  · next m r h =>
    obtain ⟨rfl, rfl⟩ : l = m ∧ '\x7d' :: rest = r := by simpa [hl] using h
    split
    · next h => simp [past?_other (show isBlank '\x7d' = false from by decide)] at h
    · simp [past?_mark (show isBlank '\x7d' = false from by decide)]

theorem labels?_more (hend : past? '\x7d' s = none) (hl : label? s = some (l, ',' :: rest)) :
    labels? s = (labels? rest).map fun r => (l :: r.1, r.2) := by
  have hcomma : past? ',' (',' :: rest) = some rest := past?_mark (by decide)
  rw [labels?, hend]
  simp only
  split
  · next h => simp [hl] at h
  · next m r h =>
    obtain ⟨rfl, rfl⟩ : l = m ∧ ',' :: rest = r := by simpa [hl] using h
    split
    · next h => rw [hcomma] at h; rw [Option.some.inj h]
    · next h => simp [hcomma] at h

theorem labels?_written (h : ∀ l ∈ ls, isName inLabelName l.1.toList = true) :
    labels? (List.intercalate [','] (ls.map labelText) ++ '\x7d' :: rest) = some (ls, rest) := by
  induction ls with
  | nil =>
    rw [labels?]
    simp [past?_mark (show isBlank '\x7d' = false from by decide)]
  | cons l ls ih =>
    have hl := h l List.mem_cons_self
    have ih := ih fun l hl => h l (List.mem_cons_of_mem _ hl)
    cases ls with
    | nil => simpa using labels?_last (past?_labelText hl) (label?_labelText ('\x7d' :: rest) hl)
    | cons l' ls =>
      have hmore := labels?_more (past?_labelText hl)
        (label?_labelText
          (',' :: (List.intercalate [','] ((l' :: ls).map labelText) ++ '\x7d' :: rest)) hl)
      rw [ih, Option.map_some] at hmore
      simpa [List.intercalate_cons_cons] using hmore

/-! ## Lines -/

/-- A metric whose lines can be told apart and whose value is written as it is. -/
structure Family.Readable (f : Family) : Prop where
  named : isName inMetricName f.fullName = true
  helped : trim f.help.toList = f.help.toList
  unescaped : '\x5c' ∉ f.help.toList
  unbroken : '\n' ∉ f.help.toList
  small : f.value ≤ Nat.pow 2 53

/-- What is read of a metric. -/
def Family.reading (ls : List Label) (f : Family) : Reading :=
  ⟨String.ofList f.fullName, f.help, f.kind, ls, f.value⟩

theorem name?_blank : name? letter (' ' :: s) = name? letter s := rfl

theorem Family.Readable.name?_fullName (h : f.Readable) (hc : inMetricName c = false) :
    name? inMetricName (f.fullName ++ c :: rest) = some (String.ofList f.fullName, c :: rest) :=
  name?_append rest h.named (fun _ => isBlank_of_letter) hc

theorem helpLine_eq (f : Family) : helpLine f =
    '#' :: ' ' :: 'H' :: 'E' :: 'L' :: 'P' :: ' ' :: (f.fullName ++ ' ' :: f.help.toList) := by
  have hmark (s t : List Char) : "# HELP ".toList ++ s ++ t =
      '#' :: ' ' :: 'H' :: 'E' :: 'L' :: 'P' :: ' ' :: (s ++ t) := by simp
  exact hmark f.fullName (' ' :: f.help.toList)

theorem kindLine_eq (f : Family) : kindLine f =
    '#' :: ' ' :: 'T' :: 'Y' :: 'P' :: 'E' :: ' ' ::
      (f.fullName ++ ' ' :: f.kind.label.toList) := by
  have hmark (s t : List Char) : "# TYPE ".toList ++ s ++ t =
      '#' :: ' ' :: 'T' :: 'Y' :: 'P' :: 'E' :: ' ' :: (s ++ t) := by simp
  exact hmark f.fullName (' ' :: f.kind.label.toList)

theorem line?_hash (s : List Char) : line? ('#' :: s) = hashed? s := rfl

theorem hashed?_help (s : List Char) :
    hashed? (' ' :: 'H' :: 'E' :: 'L' :: 'P' :: ' ' :: s) = (do
      let (name, s) ← name? inMetricName s
      let help ← helping? false (trim s)
      pure [.help name (String.ofList help)]) := by
  have hword : "HELP".toList = ['H', 'E', 'L', 'P'] := by decide
  simp [hashed?, trim_blank, trim_cons, isBlank, hword, name?_blank]

theorem hashed?_kind (s : List Char) :
    hashed? (' ' :: 'T' :: 'Y' :: 'P' :: 'E' :: ' ' :: s) = (do
      let (name, s) ← name? inMetricName s
      let kind ← Kind.ofLabel? (trim s)
      pure [.kind name kind]) := by
  have hhelp : "HELP".toList = ['H', 'E', 'L', 'P'] := by decide
  have hword : "TYPE".toList = ['T', 'Y', 'P', 'E'] := by decide
  simp [hashed?, trim_blank, trim_cons, isBlank, hhelp, hword, name?_blank]

theorem line?_helpLine (h : f.Readable) :
    line? (helpLine f) = some [.help (String.ofList f.fullName) f.help] := by
  have htrim : trim (' ' :: f.help.toList) = f.help.toList := h.helped
  rw [helpLine_eq, line?_hash, hashed?_help, h.name?_fullName (by decide)]
  simp [htrim, helping?_plain h.unescaped]

theorem line?_kindLine (h : f.Readable) :
    line? (kindLine f) = some [.kind (String.ofList f.fullName) f.kind] := by
  have hkind : Kind.ofLabel? (trim (' ' :: f.kind.label.toList)) = some f.kind := by
    cases f.kind <;> decide
  rw [kindLine_eq, line?_hash, hashed?_kind, h.name?_fullName (by decide)]
  simp [hkind]

theorem line?_sampleLine (h : f.Readable) (hls : ∀ l ∈ ls, isName inLabelName l.1.toList = true) :
    line? (sampleLine (ls.map labelText) f) =
      some [.sample (String.ofList f.fullName) ls f.value] := by
  obtain ⟨c, cs, hname, -, hall⟩ := isName_cases h.named
  have hc := hall c (hname ▸ List.mem_cons_self)
  have hhash : c ≠ '#' := by rintro rfl; exact absurd hc (by decide)
  have hline : line? (sampleLine (ls.map labelText) f) =
      sample? (sampleLine (ls.map labelText) f) := by
    simp only [line?, sampleLine, hname, List.cons_append, trim_cons (isBlank_of_letter hc), hhash,
      if_false]
  rw [hline, sampleLine, sample?, h.name?_fullName (by decide), Decimal.shortest_of_le h.small]
  have htrim : trim [] = [] := rfl
  simp only [Option.bind_eq_bind, Option.bind_some, labelSet?,
    past?_mark (show isBlank '\x7b' = false from by decide), labels?_written hls, number?_digits,
    htrim, if_true, Option.pure_def]

/-! ## Texts -/

/-- A text of lines, none with a line end inside, is cut into those lines. -/
theorem lines?_closed (lines : List (List Char)) (h : ∀ line ∈ lines, '\n' ∉ line) :
    lines? (lines.flatMap fun line => line ++ ['\n']) = some lines := by
  induction lines with
  | nil => rfl
  | cons line lines ih =>
    have ih := ih fun l hl => h l (List.mem_cons_of_mem _ hl)
    have hline := h line List.mem_cons_self
    rw [List.flatMap_cons]
    -- the first line grows at its front, one character at a time
    clear h
    induction line with
    | nil => simp [lines?, ih]
    | cons c line ihl =>
      obtain ⟨hc, hrest⟩ : '\n' ≠ c ∧ '\n' ∉ line := by simpa using hline
      have ihl := ihl hrest
      rw [List.cons_append, List.cons_append, lines?, if_neg (Ne.symm hc), ihl]

theorem not_mem_labelText (h : isName inLabelName l.1.toList = true) : '\n' ∉ labelText l := by
  obtain ⟨-, -, -, -, hall⟩ := isName_cases h
  have hname : '\n' ∉ l.1.toList := fun hn => absurd (hall _ hn) (by decide)
  have hvalue : ∀ c : Char, '\n' ∉ escapeChar c := by
    intro c
    unfold escapeChar
    split_ifs with hslash hquote hend
    · decide
    · decide
    · decide
    · simpa using Ne.symm hend
  simp [labelText, hname, hvalue]

theorem not_mem_intercalate {sep : List Char} {parts : List (List Char)} (hsep : c ∉ sep)
    (h : ∀ part ∈ parts, c ∉ part) : c ∉ List.intercalate sep parts := by
  induction parts with
  | nil => simp
  | cons part parts ih =>
    have hpart := h part List.mem_cons_self
    have ih := ih fun p hp => h p (List.mem_cons_of_mem _ hp)
    cases parts with
    | nil => simpa using hpart
    | cons next parts => simp [List.intercalate_cons_cons, hpart, hsep, ih]

/-- No line of a metric has a line end inside. -/
theorem not_mem_familyLines (h : f.Readable)
    (hls : ∀ l ∈ ls, isName inLabelName l.1.toList = true) :
    ∀ line ∈ familyLines (ls.map labelText) f, '\n' ∉ line := by
  obtain ⟨-, -, -, -, hall⟩ := isName_cases h.named
  have hname : '\n' ∉ f.fullName := fun hn => absurd (hall _ hn) (by decide)
  have hdigits : '\n' ∉ digits (Decimal.shortest f.value) := fun hn =>
    absurd (Nat.isDigit_of_mem_toDigits (by decide) (by decide) hn) (by decide)
  have hkind : '\n' ∉ f.kind.label.toList := by cases f.kind <;> decide
  have hlabels : '\n' ∉ List.intercalate [','] (ls.map labelText) :=
    not_mem_intercalate (by decide)
      (List.forall_mem_map.2 fun l hl => not_mem_labelText (hls l hl))
  simp only [familyLines, List.mem_cons, List.not_mem_nil, or_false]
  rintro line (rfl | rfl | rfl)
  · simp [helpLine_eq, hname, h.unbroken]
  · simp [kindLine_eq, hname, hkind]
  · simp [sampleLine, hname, hdigits, hlabels]

/-- The three lines of a metric, read one after the other. -/
theorem mapM_familyLines (h : f.Readable)
    (hls : ∀ l ∈ ls, isName inLabelName l.1.toList = true) :
    (familyLines (ls.map labelText) f).mapM line? =
      some [[.help (String.ofList f.fullName) f.help], [.kind (String.ofList f.fullName) f.kind],
        [.sample (String.ofList f.fullName) ls f.value]] := by
  simp [familyLines, line?_helpLine h, line?_kindLine h, line?_sampleLine h hls]

/-- What the lines of metrics say is taken together, metric by metric. -/
theorem metrics?_told (hfs : ∀ f ∈ fs, f.Readable)
    (hls : ∀ l ∈ ls, isName inLabelName l.1.toList = true) :
    ∃ told, (fs.flatMap (familyLines (ls.map labelText))).mapM line? = some told ∧
      metrics? told.flatten = some (fs.map (·.reading ls)) := by
  induction fs with
  | nil => exact ⟨[], rfl, rfl⟩
  | cons f fs ih =>
    obtain ⟨told, htold, hread⟩ := ih fun f hf => hfs f (List.mem_cons_of_mem _ hf)
    have hf := mapM_familyLines (hfs f List.mem_cons_self) hls
    refine ⟨_, by rw [List.flatMap_cons, List.mapM_append, hf, htold]; rfl, ?_⟩
    simp [metrics?, hread, Family.reading]

/-- The text of such metrics tells them, with their labels and values. -/
theorem read?_text (hfs : ∀ f ∈ fs, f.Readable)
    (hls : ∀ l ∈ ls, isName inLabelName l.1.toList = true) :
    read? (text fs (ls.map labelText)) = some (fs.map (·.reading ls)) := by
  have hlines := lines?_closed (fs.flatMap (familyLines (ls.map labelText))) fun line hl =>
    have ⟨f, hf, hline⟩ := List.mem_flatMap.1 hl
    not_mem_familyLines (hfs f hf) hls line hline
  obtain ⟨told, htold, hread⟩ := metrics?_told hfs hls
  simp [read?, text, hlines, htold, hread]

/-! ## The metrics of a pool -/

section Pools

variable {m m' : Metrics} {pool pool' : String} {tags tags' : List Label} {rs : List Reading}

/-- A number of 53 binary digits holds whatever is counted. -/
def Moderate (m : Metrics) : Prop := ∀ x ∈ m.fields, x.2 ≤ Nat.pow 2 53

/-- Tags as a collector takes them: each well named, and no two of one name. -/
structure WellTagged (tags : List Label) : Prop where
  named : ∀ t ∈ tags, isName inLabelName t.1.toList = true
  distinct : (tags.map (·.1)).Nodup

/-- A text of a pool's metrics, with the labels of the samples in some order. -/
def Written (m : Metrics) (pool : String) (tags : List Label) (s : List Char) : Prop :=
  ∃ ls : List Label, ls.Perm (labels pool tags) ∧ s = text (families m) (ls.map labelText)

/-- The metrics of a pool by name, with their kinds and values. -/
def tally (m : Metrics) : List (String × Kind × Nat) :=
  [ ("resourcepool_abandoned_total", .counter, m.counters.abandoned),
    ("resourcepool_evictions_total", .counter, m.counters.evicted),
    ("resourcepool_exhausted_total", .counter, m.counters.exhausted),
    ("resourcepool_invalid_returns_total", .counter, m.counters.invalidReturns),
    ("resourcepool_max_total", .gauge, m.status.maxTotal),
    ("resourcepool_objects_active", .gauge, m.status.active),
    ("resourcepool_objects_borrowed_total", .counter, m.counters.borrowed),
    ("resourcepool_objects_created_total", .counter, m.counters.created),
    ("resourcepool_objects_destroyed_total", .counter, m.counters.destroyed),
    ("resourcepool_objects_idle", .gauge, m.status.idle),
    ("resourcepool_objects_returned_total", .counter, m.counters.returned),
    ("resourcepool_validation_failures_total", .counter, m.counters.validationFailures),
    ("resourcepool_waiters", .gauge, m.status.waiters) ]

/-- Everything that is counted is told. -/
theorem mem_fields_of_mem_tally {x : String × Kind × Nat} (h : x ∈ tally m) :
    ∃ y ∈ m.fields, y.2 = x.2.2 := by
  have hall : ∀ x ∈ tally m, x.2.2 ∈ m.fields.map (·.2) := by
    simp [tally, Metrics.fields, Counters.fields, Status.fields]
  simpa using hall x h

theorem value_of_gauging {name help : String} {n : Nat} (h : n ≤ Nat.pow 2 53) :
    (gauging name help n).value = n :=
  have hlarge : Nat.pow 2 53 ≤ largestGauge := by decide
  Nat.min_eq_left (Nat.le_trans h hlarge)

/-- A metric's full name as one text. -/
theorem ofList_fullName (f : Family) : String.ofList f.fullName = "resourcepool_" ++ f.name := by
  simp only [Family.fullName, String.ofList_append, String.ofList_toList, nameSpace]

/-- The metrics of a pool under their full names. -/
theorem families_tally (hm : Moderate m) :
    (families m).map (fun f => (String.ofList f.fullName, f.kind, f.value)) = tally m := by
  have hcounts : ∀ y ∈ m.status.fields, y.2 ≤ Nat.pow 2 53 := fun y hy =>
    hm y (List.mem_append_right _ hy)
  simp only [Status.fields, List.forall_mem_cons] at hcounts
  obtain ⟨hactive, hidle, hwaiters, htotal, -⟩ := hcounts
  simp only [ofList_fullName, families, List.map_cons, List.map_nil, value_of_gauging hactive,
    value_of_gauging hidle, value_of_gauging hwaiters, value_of_gauging htotal]
  simp [tally, gauging, counting]

/-- What does not depend on any value: the names and the helps of the metrics. -/
theorem families_words (m : Metrics) :
    ∀ w ∈ (families m).map (fun f => (f.name, f.fullName, f.help)),
      isName inMetricName w.1.toList = true ∧ isName inMetricName w.2.1 = true ∧ w.2.2 ≠ "" ∧
        trim w.2.2.toList = w.2.2.toList ∧ '\x5c' ∉ w.2.2.toList ∧ '\n' ∉ w.2.2.toList := by
  have hwords : (families m).map (fun f => (f.name, f.fullName, f.help)) =
      (families ⟨{}, ⟨0, 0, 0, 0⟩⟩).map fun f => (f.name, f.fullName, f.help) := rfl
  rw [hwords]
  decide

/-- The metrics of a pool can be told apart and are written as they are. -/
theorem readable_of_mem_families (hm : Moderate m) (hf : f ∈ families m) : f.Readable := by
  have ⟨_, hnamed, _, hhelped, hescaped, hbroken⟩ := families_words m _ (List.mem_map_of_mem hf)
  have htold : (String.ofList f.fullName, f.kind, f.value) ∈ tally m :=
    families_tally hm ▸ List.mem_map_of_mem hf
  obtain ⟨y, hy, hvalue⟩ := mem_fields_of_mem_tally htold
  exact ⟨hnamed, hhelped, hescaped, hbroken, Nat.le_trans (Nat.le_of_eq hvalue.symm) (hm y hy)⟩

/-! ## Registration -/

/-- Metrics with names of their own and some help are all registered. -/
theorem foldlM_register (known : List Family)
    (hfs : ∀ f ∈ fs, isName inMetricName f.name.toList = true ∧ f.help ≠ "")
    (hnames : ((known ++ fs).map (·.name)).Nodup) :
    fs.foldlM register known = some (known ++ fs) := by
  induction fs generalizing known with
  | nil => simp
  | cons f fs ih =>
    obtain ⟨hname, hhelp⟩ := hfs f List.mem_cons_self
    have hfresh : ∀ g ∈ known, g.name ≠ f.name := by
      intro g hg heq
      rw [List.map_append, List.nodup_append] at hnames
      exact hnames.2.2 _ (List.mem_map_of_mem hg) _ (by simp) heq
    have hjoin : register known f = some (known ++ [f]) := if_pos ⟨hname, hhelp, hfresh⟩
    have hrest := ih (known ++ [f]) (fun g hg => hfs g (List.mem_cons_of_mem _ hg))
      (by simpa using hnames)
    simpa [hjoin] using hrest

theorem registered?_eq (m : Metrics) : registered? m = some (families m) := by
  have hnames : ((families m).map (·.name)).Nodup := by
    have hwords : (families m).map (·.name) = (families ⟨{}, ⟨0, 0, 0, 0⟩⟩).map (·.name) := rfl
    rw [hwords]
    decide
  exact foldlM_register [] (fun f hf =>
    have hf := families_words m _ (List.mem_map_of_mem hf)
    ⟨hf.1, hf.2.2.1⟩) hnames

/-! ## The labels of a pool -/

/-- The pool's name is a label unless a tag takes its place. -/
theorem mem_labels : l ∈ labels pool tags ↔
    l ∈ tags ∨ (l = ("pool", pool) ∧ ∀ t ∈ tags, t.1 ≠ "pool") := by
  unfold labels
  split
  · next h =>
    obtain ⟨t, ht, hpool⟩ : ∃ t ∈ tags, t.1 = "pool" := by simpa using h
    exact ⟨.inl, fun h => h.elim id fun h => absurd hpool (h.2 t ht)⟩
  · next h =>
    have hnone : ∀ t ∈ tags, t.1 ≠ "pool" := fun t ht hp => h (List.any_eq_true.2 ⟨t, ht, by simpa⟩)
    rw [List.mem_cons, or_comm]
    simp only [and_iff_left hnone]

theorem WellTagged.labels_named (h : WellTagged tags) :
    ∀ l ∈ labels pool tags, isName inLabelName l.1.toList = true := by
  intro l hl
  obtain hl | ⟨rfl, -⟩ := mem_labels.1 hl
  · exact h.named l hl
  · exact show isName inLabelName "pool".toList = true from by decide

theorem WellTagged.labels_distinct (h : WellTagged tags) :
    ((labels pool tags).map (·.1)).Nodup := by
  unfold labels
  split
  · exact h.distinct
  · next hnone =>
    rw [List.map_cons, List.nodup_cons]
    exact ⟨fun hp => hnone (by simpa using hp), h.distinct⟩

/-- The text of a pool's metrics has the labels in one order or another. -/
theorem exists_written (m : Metrics) (pool : String) (tags : List Label) :
    ∃ s, export? m pool tags = some s ∧ Written m pool tags s := by
  have hsorted := List.mergeSort_perm ((labels pool tags).map labelText) precedes
  obtain ⟨ls, htexts, hls⟩ : Relation.Comp (· = List.map labelText ·) List.Perm
      (labelTexts (labels pool tags)) (labels pool tags) :=
    List.eq_map_comp_perm labelText ▸ hsorted
  exact ⟨_, by rw [export?, registered?_eq, Option.map_some], ls, hls, by rw [htexts]⟩

/-! ## Reading a pool's metrics -/

/-- What is read are the thirteen metrics of a pool, each once and with its value, and on every
    sample the pool's name, unless a tag takes its place, and the tags. -/
structure Tells (m : Metrics) (pool : String) (tags : List Label) (rs : List Reading) : Prop where
  tallied : rs.map (fun r => (r.name, r.kind, r.value)) = tally m
  thirteen : rs.length = 13
  once : (rs.map (·.name)).Nodup
  labelled : ∀ r ∈ rs, (r.labels.map (·.1)).Nodup ∧
    ∀ l, l ∈ r.labels ↔ l ∈ tags ∨ (l = ("pool", pool) ∧ ∀ t ∈ tags, t.1 ≠ "pool")

/-- The readings of a pool's metrics with their labels in a given order. -/
theorem read?_written (hm : Moderate m) (ht : WellTagged tags) (hls : ls.Perm (labels pool tags)) :
    read? (text (families m) (ls.map labelText)) = some ((families m).map (·.reading ls)) :=
  read?_text (fun _ => readable_of_mem_families hm) fun l hl => ht.labels_named l (hls.mem_iff.1 hl)

/-- The values in such readings. -/
theorem tally_of_readings (ls : List Label) (hm : Moderate m) :
    ((families m).map (·.reading ls)).map (fun r => (r.name, r.kind, r.value)) = tally m := by
  simpa [Family.reading, Function.comp_def] using families_tally hm

theorem tells_of_readings (hm : Moderate m) (ht : WellTagged tags)
    (hls : ls.Perm (labels pool tags)) : Tells m pool tags ((families m).map (·.reading ls)) where
  tallied := tally_of_readings ls hm
  thirteen := rfl
  once := by
    have hnames : ((families m).map (·.reading ls)).map (·.name) = (tally m).map (·.1) := by
      rw [← tally_of_readings ls hm, List.map_map]
      rfl
    have hclosed : (tally m).map (·.1) = (tally ⟨{}, ⟨0, 0, 0, 0⟩⟩).map (·.1) := rfl
    rw [hnames, hclosed]
    decide
  labelled := by
    intro r hr
    obtain ⟨f, -, rfl⟩ := List.mem_map.1 hr
    exact ⟨(hls.map _).nodup_iff.2 ht.labels_distinct, fun l => hls.mem_iff.trans mem_labels⟩

/-- The values tell the metrics. -/
theorem tally_injective (h : tally m = tally m') : m = m' := by
  obtain ⟨⟨_, _, _, _, _, _, _, _, _⟩, ⟨_, _, _, _⟩⟩ := m
  obtain ⟨⟨_, _, _, _, _, _, _, _, _⟩, ⟨_, _, _, _⟩⟩ := m'
  simp_all [tally]

/-- The text of a pool's metrics read back. -/
structure ReadBack (m : Metrics) (pool : String) (tags : List Label) : Prop where
  /-- There is a text. -/
  exported : ∃ s, export? m pool tags = some s ∧ Written m pool tags s
  /-- It tells the metrics of the pool, in whatever order the labels come. -/
  told : ∀ s, Written m pool tags s → ∃ rs, read? s = some rs ∧ Tells m pool tags rs
  /-- No text is written of two pools that differ in a value or in a label. -/
  apart : ∀ s m' pool' tags', Moderate m' → WellTagged tags' → Written m pool tags s →
    Written m' pool' tags' s → m = m' ∧ (labels pool tags).Perm (labels pool' tags')

/-- The exposition of a pool's metrics can be read back: it tells exactly the thirteen metrics with
    their values and, on every sample, the pool's labels. -/
theorem metrics_read_back (m : Metrics) (pool : String) (tags : List Label) (hm : Moderate m)
    (ht : WellTagged tags) : ReadBack m pool tags where
  exported := exists_written m pool tags
  told := by
    rintro s ⟨ls, hls, rfl⟩
    exact ⟨_, read?_written hm ht hls, tells_of_readings hm ht hls⟩
  apart := by
    rintro s m' pool' tags' hm' ht' ⟨ls, hls, rfl⟩ ⟨ls', hls', heq⟩
    have hread := (read?_written hm ht hls).symm.trans
      ((congrArg read? heq).trans (read?_written hm' ht' hls'))
    have hreadings : (families m).map (·.reading ls) = (families m').map (·.reading ls') :=
      Option.some.inj hread
    have htally : tally m = tally m' := by
      rw [← tally_of_readings ls hm, ← tally_of_readings ls' hm', hreadings]
    have hlabels : ls = ls' := by
      have hhead := congrArg List.head? hreadings
      simp only [families, List.map_cons, List.head?_cons, Option.some.injEq] at hhead
      exact congrArg Reading.labels hhead
    exact ⟨tally_injective htally, hls.symm.trans (hlabels ▸ hls')⟩

/-- A pool whose name and tags look like text of the exposition. -/
theorem metrics_read_back_when_quoted :
    Moderate ⟨{ created := 3, borrowed := 9007199254740992 }, ⟨1, 2, 0, 4⟩⟩ ∧
    WellTagged [("service", "a\"\x7d 7\nresourcepool_waiters\x7bpool=\"b\\"), ("zone", "")] ∧
    ReadBack ⟨{ created := 3, borrowed := 9007199254740992 }, ⟨1, 2, 0, 4⟩⟩ "x\\\",y=\"\n"
      [("service", "a\"\x7d 7\nresourcepool_waiters\x7bpool=\"b\\"), ("zone", "")] := by
  have hm : Moderate ⟨{ created := 3, borrowed := 9007199254740992 }, ⟨1, 2, 0, 4⟩⟩ := by
    unfold Moderate
    decide
  have ht : WellTagged
      [("service", "a\"\x7d 7\nresourcepool_waiters\x7bpool=\"b\\"), ("zone", "")] :=
    ⟨by decide, by decide⟩
  exact ⟨hm, ht, metrics_read_back _ _ _ hm ht⟩

end Pools

end Exposition

end ObjectPool
