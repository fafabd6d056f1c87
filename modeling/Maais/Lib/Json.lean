import Maais.Lib.Dict
import Mathlib.Data.List.Sort
import Mathlib.Data.String.Basic

/-!
# JSON documents, their compact texts and their reader

A document without floats is written without blanks, its fields in the order they are given
(`render`); `ordered` sorts the fields of every mapping. The reader takes blanks, every escape, and
the last of several fields with one key.

* `parse_render`  a text is read back as the document it was written from;
* `render_inj`  two documents with one text are equal;
* `ordered_ordered`  sorting again changes nothing.
-/

namespace Lib

inductive Json where
  | null
  | bool (b : Bool)
  | int (n : ℤ)
  | str (s : String)
  | arr (items : List Json)
  | obj (fields : List (String × Json))

namespace Json

theorem induct {motive : Json → Prop} (null : motive .null) (bool : ∀ b, motive (.bool b))
    (int : ∀ n, motive (.int n)) (str : ∀ s, motive (.str s))
    (arr : ∀ l, (∀ a ∈ l, motive a) → motive (.arr l))
    (obj : ∀ l : List (String × Json), (∀ e ∈ l, motive e.2) → motive (.obj l)) : ∀ j, motive j :=
  @Json.rec motive (fun l => ∀ a ∈ l, motive a) (fun l => ∀ e ∈ l, motive e.2) (fun e => motive e.2)
    null bool int str arr obj (by simp) (fun _ _ ha hl => List.forall_mem_cons.mpr ⟨ha, hl⟩)
    (by simp) (fun _ _ he hl => List.forall_mem_cons.mpr ⟨he, hl⟩) (fun _ _ h => h)

/-! ## texts -/

def shortEscape (c : Char) : Option Char :=
  if c = '"' then some '"' else if c = '\\' then some '\\' else if c = '\n' then
    some 'n' else if c = '\r' then some 'r'
  else if c = '\t' then some 't' else if c = '\x0c' then some 'f' else if c = '\x08' then
    some 'b' else none

def escape (c : Char) : List Char :=
  match shortEscape c with
  | some d => ['\\', d]
  | none =>
    if c.toNat < 32 then
      ['\\', 'u', '0', '0', Nat.digitChar (c.toNat / 16), Nat.digitChar (c.toNat % 16)] else [c]

def quoted (s : String) : List Char := '"' :: (s.toList.flatMap escape ++ ['"'])

def numeral (n : ℤ) : List Char :=
  if n < 0 then '-' :: Nat.toDigits 10 n.natAbs else Nat.toDigits 10 n.natAbs

mutual
def render : Json → List Char
  | .null => ['n', 'u', 'l', 'l']
  | .bool true => ['t', 'r', 'u', 'e']
  | .bool false => ['f', 'a', 'l', 's', 'e']
  | .int n => numeral n
  | .str s => quoted s
  | .arr [] => ['[', ']']
  | .arr (a :: l) => '[' :: (render a ++ renderItems l)
  | .obj [] => ['\x7b', '\x7d']
  | .obj ((k, a) :: l) => '\x7b' :: (quoted k ++ ':' :: (render a ++ renderFields l))
def renderItems : List Json → List Char
  | [] => [']']
  | a :: l => ',' :: (render a ++ renderItems l)
def renderFields : List (String × Json) → List Char
  | [] => ['\x7d']
  | (k, a) :: l => ',' :: (quoted k ++ ':' :: (render a ++ renderFields l))
end

/-! ## the order of the fields -/

mutual
/-- every object with its keys in order -/
def ordered : Json → Json
  | .arr l => .arr (orderedItems l)
  | .obj l => .obj ((orderedFields l).insertionSort (fun e e' => e.1 ≤ e'.1))
  | j => j
def orderedItems : List Json → List Json
  | [] => []
  | a :: l => ordered a :: orderedItems l
def orderedFields : List (String × Json) → List (String × Json)
  | [] => []
  | (k, a) :: l => (k, ordered a) :: orderedFields l
end

theorem orderedItems_eq (l : List Json) : orderedItems l = l.map ordered := by
  induction l with
  | nil => rfl
  | cons a l ih => rw [orderedItems, ih, List.map_cons]

theorem orderedFields_eq (l : List (String × Json)) :
    orderedFields l = l.map (fun e => (e.1, ordered e.2)) := by
  induction l with
  | nil => rfl
  | cons e l ih => rw [orderedFields, ih, List.map_cons]

theorem ordered_ordered (j : Json) : ordered (ordered j) = ordered j := by
  induction j using induct with
  | null | bool | int | str => rfl
  | arr l ih =>
    rw [ordered, ordered, orderedItems_eq, orderedItems_eq, List.map_map]
    exact congrArg Json.arr (List.map_congr_left ih)
  | obj l ih =>
    have hsame : (l.map (fun e => (e.1, ordered e.2))).map (fun e => (e.1, ordered e.2)) =
        l.map (fun e => (e.1, ordered e.2)) := by
      rw [List.map_map]
      exact List.map_congr_left fun e he => Prod.ext rfl (ih e he)
    have : Std.Total (fun e e' : String × Json => e.1 ≤ e'.1) := ⟨fun e e' => le_total e.1 e'.1⟩
    have : IsTrans (String × Json) (fun e e' => e.1 ≤ e'.1) := ⟨fun _ _ _ => le_trans⟩
    have hsort :=
      List.map_insertionSort (fun e e' : String × Json => e.1 ≤ e'.1) (fun e e' => e.1 ≤ e'.1)
      (fun e => (e.1, ordered e.2)) (l.map (fun e => (e.1, ordered e.2))) (fun _ _ _ _ => Iff.rfl)
    rw [ordered, ordered, orderedFields_eq, orderedFields_eq, hsort, hsame,
      (List.pairwise_insertionSort (fun e e' : String × Json => e.1 ≤ e'.1) _).insertionSort_eq]

/-- no object has a key twice -/
inductive Keyed : Json → Prop
  | null : Keyed .null
  | bool (b : Bool) : Keyed (.bool b)
  | int (n : ℤ) : Keyed (.int n)
  | str (s : String) : Keyed (.str s)
  | arr {l : List Json} (h : ∀ a ∈ l, Keyed a) : Keyed (.arr l)
  | obj {l : List (String × Json)} (hkeys : (l.map Prod.fst).Nodup)
    (h : ∀ e ∈ l, Keyed e.2) : Keyed (.obj l)

/-! ## the reader -/

def blank (c : Char) : Bool := c = ' ' || c = '\t' || c = '\n' || c = '\r'

def skip : List Char → List Char
  | [] => []
  | c :: cs => if blank c then skip cs else c :: cs

def hexValue (c : Char) : Option ℕ :=
  if c.isDigit then some (c.toNat - 48)
  else if 'a' ≤ c ∧ c ≤ 'f' then some (c.toNat - 87)
  else if 'A' ≤ c ∧ c ≤ 'F' then some (c.toNat - 55) else none

def readUnit : List Char → Option (ℕ × List Char)
  | a :: b :: c :: d :: cs => do
    let a ← hexValue a
    let b ← hexValue b
    let c ← hexValue c
    let d ← hexValue d
    return (((a * 16 + b) * 16 + c) * 16 + d, cs)
  | _ => none

/-- the character of a unit, with the second unit of a pair of surrogates; one surrogate alone is
none -/
def readScalar (n : ℕ) (cs : List Char) : Option (Char × List Char) :=
  if n < 55296 ∨ 57343 < n then some (Char.ofNat n, cs)
  else
    match cs with
    | '\\' :: 'u' :: cs => do
      let (m, cs) ← readUnit cs
      if n < 56320 ∧ 56320 ≤ m ∧ m < 57344 then
        return (Char.ofNat (65536 + (n - 55296) * 1024 + (m - 56320)), cs)
      else none
    | _ => none

def unescape (c : Char) : Option Char :=
  if c = '"' ∨ c = '\\' ∨ c = '/' then some c
  else if c = 'n' then some '\n' else if c = 'r' then some '\r' else if c = 't' then some '\t'
  else if c = 'f' then some '\x0c' else if c = 'b' then some '\x08' else none

def readChar : List Char → Option (Char × List Char)
  | [] => none
  | c :: cs =>
    if c = '\\' then
      match cs with
      | [] => none
      | d :: cs =>
        if d = 'u' then do
          let (n, cs) ← readUnit cs
          readScalar n cs
        else (unescape d).map (fun c => (c, cs))
    else if c.toNat < 32 then none else some (c, cs)

def readChars : ℕ → List Char → Option (List Char × List Char)
  | 0, _ => none
  | n + 1, cs =>
    if cs.head? = some '"' then some ([], cs.tail)
    else do
      let (c, cs) ← readChar cs
      let (l, cs) ← readChars n cs
      return (c :: l, cs)

def readString (cs : List Char) : Option (String × List Char) :=
  (readChars cs.length cs).map (fun r => (String.ofList r.1, r.2))

/-- the digits of a number: a leading zero stands alone -/
def digitsOf (cs : List Char) : List Char :=
  if cs.head? = some '0' then ['0'] else cs.takeWhile Char.isDigit

def readNat (cs : List Char) : Option (ℕ × List Char) :=
  if digitsOf cs = [] then none
  else some (Nat.ofDigitChars 10 (digitsOf cs) 0, cs.drop (digitsOf cs).length)

mutual
/-- a value and what follows it.  A number with a fraction or an exponent is not read: its point
stands where a delimiter is expected. -/
def readValue : ℕ → List Char → Option (Json × List Char)
  | 0, _ => none
  | n + 1, cs =>
    match skip cs with
    | [] => none
    | c :: cs =>
      if c = '"' then (readString cs).map (fun r => (.str r.1, r.2))
      else if c = '[' then
        if (skip cs).head? = some ']' then some (.arr [], (skip cs).tail)
        else (readItems n cs).map (fun r => (.arr r.1, r.2))
      else if c = '\x7b' then
        if (skip cs).head? = some '\x7d' then some (.obj [], (skip cs).tail)
        else (readFields n cs).map
          (fun r =>
          (.obj ((Dict.empty : Dict String Json).setAll Prod.fst Prod.snd r.1).entries, r.2))
      else if c = 'n' then (['u', 'l', 'l'].isPrefixOf? cs).map (fun cs => (.null, cs))
      else if c = 't' then (['r', 'u', 'e'].isPrefixOf? cs).map (fun cs => (.bool true, cs))
      else if c = 'f' then (['a', 'l', 's', 'e'].isPrefixOf? cs).map (fun cs => (.bool false, cs))
      else if c = '-' then (readNat cs).map (fun r => (.int (-r.1), r.2))
      else (readNat (c :: cs)).map (fun r => (.int r.1, r.2))
def readItems : ℕ → List Char → Option (List Json × List Char)
  | 0, _ => none
  | n + 1, cs => do
    let (a, cs) ← readValue n cs
    match skip cs with
    | [] => none
    | c :: cs =>
      if c = ',' then (readItems n cs).map (fun r => (a :: r.1, r.2))
      else if c = ']' then some ([a], cs) else none
def readFields : ℕ → List Char → Option (List (String × Json) × List Char)
  | 0, _ => none
  | n + 1, cs =>
    if (skip cs).head? = some '"' then do
      let (k, cs) ← readString (skip cs).tail
      if (skip cs).head? = some ':' then
        let (a, cs) ← readValue n (skip cs).tail
        match skip cs with
        | [] => none
        | c :: cs =>
          if c = ',' then (readFields n cs).map (fun r => ((k, a) :: r.1, r.2))
          else if c = '\x7d' then some ([(k, a)], cs) else none
      else none
    else none
end

def parse (cs : List Char) : Option Json :=
  match readValue (cs.length + 1) cs with
  | some (j, rest) => if skip rest = [] then some j else none
  | none => none

/-! ## reading back -/

theorem skip_cons {c : Char} (h : blank c = false) (cs : List Char) : skip (c :: cs) = c :: cs := by
  rw [skip, h]
  rfl

theorem hexValue_digitChar {d : ℕ} (h : d < 16) : hexValue (Nat.digitChar d) = some d := by
  have hall : ∀ d < 16, hexValue (Nat.digitChar d) = some d := by decide
  exact hall d h

theorem shortEscape_eq {c d : Char} (h : shortEscape c = some d) :
    (c, d) ∈ [('"', '"'), ('\\', '\\'), ('\n', 'n'), ('\r', 'r'), ('\t', 't'), ('\x0c', 'f'),
    ('\x08', 'b')] := by
  unfold shortEscape at h
  split_ifs at h
  all_goals
    cases h
    subst_vars
    decide

theorem readChar_escape (c : Char) (rest : List Char) :
    readChar (escape c ++ rest) = some (c, rest) ∧ (escape c ++ rest).head? ≠ some '"' := by
  unfold escape
  cases h : shortEscape c with
  | some d =>
    have hpair :
        ∀ e ∈ [('"', '"'), ('\\', '\\'), ('\n', 'n'), ('\r', 'r'), ('\t', 't'), ('\x0c', 'f'),
        ('\x08', 'b')], e.2 ≠ 'u' ∧ unescape e.2 = some e.1 := by decide
    obtain ⟨hu, hc⟩ := hpair _ (shortEscape_eq h)
    simp [readChar, hu, hc]
  | none =>
    by_cases hlow : c.toNat < 32
    · have hhigh := hexValue_digitChar (show c.toNat / 16 < 16 by omega)
      have hlast := hexValue_digitChar (show c.toNat % 16 < 16 by omega)
      have hvalue : c.toNat / 16 * 16 + c.toNat % 16 = c.toNat := by omega
      have hzero : hexValue '0' = some 0 := by decide
      have hsmall : c.toNat < 55296 := by omega
      simp [hlow, readChar, readUnit, hzero, hhigh, hlast, readScalar, hvalue, hsmall]
    · have hne : c ≠ '\\' ∧ c ≠ '"' := by
        constructor
        · rintro rfl
          cases h
        · rintro rfl
          cases h
      simp [hlow, readChar, hne.1, hne.2]

theorem readChars_escape (s rest : List Char) {n : ℕ} (hn : s.length < n) :
    readChars n (s.flatMap escape ++ '"' :: rest) = some (s, rest) := by
  induction s generalizing n with
  | nil =>
    obtain ⟨n, rfl⟩ := Nat.exists_eq_succ_of_ne_zero (Nat.ne_of_gt hn)
    rfl
  | cons c s ih =>
    obtain ⟨n, rfl⟩ := Nat.exists_eq_succ_of_ne_zero (Nat.ne_of_gt (Nat.zero_lt_of_lt hn))
    obtain ⟨hread, hquote⟩ := readChar_escape c (s.flatMap escape ++ '"' :: rest)
    rw [List.flatMap_cons, List.append_assoc, readChars, if_neg hquote, hread]
    have hrest := ih (Nat.lt_of_succ_lt_succ hn)
    simp [hrest]

theorem length_le_escaped (s : List Char) : s.length ≤ (s.flatMap escape).length := by
  induction s with
  | nil => exact le_rfl
  | cons c s ih =>
    have hpos : 0 < (escape c).length := by
      unfold escape
      split
      · exact Nat.succ_pos _
      · split <;> exact Nat.succ_pos _
    rw [List.flatMap_cons, List.length_cons, List.length_append]
    omega

theorem readString_quoted (s : String) (rest : List Char) :
    readString ((quoted s ++ rest).tail) = some (s, rest) := by
  have hshape : (quoted s ++ rest).tail = s.toList.flatMap escape ++ '"' :: rest := by simp [quoted]
  have hlength := length_le_escaped s.toList
  rw [hshape, readString,
    readChars_escape s.toList rest (by rw [List.length_append, List.length_cons]; omega),
    Option.map_some, String.ofList_toList]

/-! numbers -/

/-- a number cannot go on here -/
def Stops (rest : List Char) : Prop := ∀ c ∈ rest.head?, c.isDigit = false

theorem toDigits_head {n : ℕ} (hn : n ≠ 0) : (Nat.toDigits 10 n).head? ≠ some '0' := by
  induction n using Nat.strong_induction_on with
  | _ n ih =>
    by_cases hlt : n < 10
    · rw [Nat.toDigits_of_lt_base hlt]
      have hall : ∀ n < 10, n ≠ 0 → ([Nat.digitChar n] : List Char).head? ≠ some '0' := by decide
      exact hall n hlt hn
    · have hhead := ih (n / 10) (by omega) (by omega)
      rw [Nat.toDigits_of_base_le (by decide) (by omega), List.head?_append]
      cases hd : (Nat.toDigits 10 (n / 10)).head? with
      | none =>
        rw [List.head?_eq_none_iff] at hd
        exact absurd hd (Nat.toDigits_ne_nil)
      | some c => rwa [hd] at hhead

theorem readNat_toDigits (n : ℕ) {rest : List Char} (hr : Stops rest) :
    readNat (Nat.toDigits 10 n ++ rest) = some (n, rest) := by
  have hall : ∀ c ∈ Nat.toDigits 10 n, c.isDigit = true :=
    fun c => Nat.isDigit_of_mem_toDigits (by decide) (by decide)
  have hne : Nat.toDigits 10 n ≠ [] := Nat.toDigits_ne_nil
  have hdigits : digitsOf (Nat.toDigits 10 n ++ rest) = Nat.toDigits 10 n := by
    unfold digitsOf
    by_cases hn : n = 0
    · subst hn
      rfl
    · have hstop : rest.takeWhile Char.isDigit = [] := by
        cases rest with
        | nil => rfl
        | cons c rest => rw [List.takeWhile_cons_of_neg (by simpa using hr c rfl)]
      rw [if_neg, List.takeWhile_append_of_pos hall, hstop, List.append_nil]
      rw [List.head?_append_of_ne_nil _ hne]
      exact toDigits_head hn
  rw [readNat, hdigits, if_neg hne, List.drop_left,
    Nat.ofDigitChars_toDigits (by decide) (by decide)]

/-! values -/

/-- read from its rendering, whatever follows -/
def ReadsBack (a : Json) : Prop :=
  ∀ (n : ℕ) (rest : List Char), (render a).length ≤ n → Stops rest →
    readValue (n + 1) (render a ++ rest) = some (a, rest)

theorem quoted_head (s : String) (rest : List Char) :
    quoted s ++ rest = '"' :: (quoted s ++ rest).tail := rfl

theorem stops_cons {c : Char} (h : c.isDigit = false) (rest : List Char) : Stops (c :: rest) := by
  intro d hd
  cases hd
  exact h

theorem stops_items (l : List Json) (rest : List Char) : Stops (renderItems l ++ rest) := by
  cases l with
  | nil => exact stops_cons (by decide) _
  | cons => exact stops_cons (by decide) _

theorem stops_fields (l : List (String × Json)) (rest : List Char) :
    Stops (renderFields l ++ rest) := by
  cases l with
  | nil => exact stops_cons (by decide) _
  | cons => exact stops_cons (by decide) _

theorem readItems_render {a : Json} {l : List Json} (ha : ReadsBack a) (hl : ∀ b ∈ l, ReadsBack b)
    {n : ℕ} (rest : List Char) (hn : (render a).length + (renderItems l).length ≤ n) :
    readItems (n + 1) (render a ++ (renderItems l ++ rest)) = some (a :: l, rest) := by
  induction l generalizing a n with
  | nil =>
    rw [renderItems, List.length_singleton] at hn
    obtain ⟨m, rfl⟩ := Nat.exists_eq_add_of_lt hn
    rw [readItems, ha _ _ (by omega) (stops_items [] rest)]
    rfl
  | cons b l ih =>
    rw [renderItems, List.length_cons, List.length_append, ← add_assoc] at hn
    obtain ⟨m, rfl⟩ := Nat.exists_eq_add_of_lt hn
    have hrest := @ih b (hl b List.mem_cons_self) (fun c hc => hl c (List.mem_cons_of_mem b hc))
      ((render a).length + ((render b).length + (renderItems l).length) + m) (by omega)
    rw [readItems, ha _ _ (by omega) (stops_items (b :: l) rest)]
    show (readItems _ (render b ++ renderItems l ++ rest)).map _ = _
    rw [List.append_assoc, hrest]
    rfl

theorem readFields_render {k : String} {a : Json} {l : List (String × Json)} (ha : ReadsBack a)
    (hl : ∀ e ∈ l, ReadsBack e.2) {n : ℕ} (rest : List Char)
    (hn : (render a).length + (renderFields l).length ≤ n) :
    readFields (n + 1) (quoted k ++ ':' :: (render a ++ (renderFields l ++ rest))) =
    some ((k, a) :: l, rest) := by
  induction l generalizing k a n with
  | nil =>
    rw [renderFields, List.length_singleton] at hn
    obtain ⟨m, rfl⟩ := Nat.exists_eq_add_of_lt hn
    rw [readFields, quoted_head, skip_cons (by decide), List.head?_cons, if_pos rfl, List.tail_cons,
      readString_quoted]
    show (readValue _ (render a ++ _) >>= _) = _
    rw [ha _ _ (by omega) (stops_fields [] rest)]
    rfl
  | cons e l ih =>
    rw [renderFields, List.length_cons, List.length_append, List.length_cons, List.length_append,
      ← add_assoc] at hn
    obtain ⟨m, rfl⟩ := Nat.exists_eq_add_of_lt hn
    have hrest :=
      @ih e.1 e.2 (hl e List.mem_cons_self) (fun c hc => hl c (List.mem_cons_of_mem e hc))
      ((render a).length +
      ((quoted e.1).length + ((render e.2).length + (renderFields l).length + 1)) + m) (by omega)
    rw [readFields, quoted_head, skip_cons (by decide), List.head?_cons, if_pos rfl, List.tail_cons,
      readString_quoted]
    show (readValue _ (render a ++ _) >>= _) = _
    rw [ha _ _ (by omega) (stops_fields (e :: l) rest)]
    show (readFields _ ((quoted e.1 ++ ':' :: (render e.2 ++ renderFields l)) ++ rest)).map _ = _
    rw [List.append_assoc, List.cons_append, List.append_assoc, hrest]
    rfl

theorem toDigits_cons (n : ℕ) : ∃ c cs, Nat.toDigits 10 n = c :: cs ∧ c.isDigit = true := by
  obtain ⟨c, cs, h⟩ := List.exists_cons_of_ne_nil (Nat.toDigits_ne_nil (b := 10) (n := n))
  exact ⟨c, cs, h, Nat.isDigit_of_mem_toDigits (by decide) (by decide) (h ▸ List.mem_cons_self)⟩

theorem digit_ne {c d : Char} (hc : c.isDigit = true) (hd : d.isDigit = false) : c ≠ d := by
  rintro rfl
  rw [hc] at hd
  cases hd

/-- no value begins with a blank or a closing bracket -/
theorem render_head (j : Json) : ∃ c cs, render j = c :: cs ∧ blank c = false ∧ c ≠ ']' := by
  cases j with
  | null => exact ⟨_, _, rfl, by decide, by decide⟩
  | bool b => cases b <;> exact ⟨_, _, rfl, by decide, by decide⟩
  | str s => exact ⟨_, _, rfl, by decide, by decide⟩
  | arr l => cases l <;> exact ⟨_, _, rfl, by decide, by decide⟩
  | obj l => cases l <;> exact ⟨_, _, rfl, by decide, by decide⟩
  | int n =>
    rw [render, numeral]
    split
    · exact ⟨_, _, rfl, by decide, by decide⟩
    · obtain ⟨c, cs, h, hc⟩ := toDigits_cons n.natAbs
      have hblank : blank c = false := by
        simp [blank, digit_ne hc (show ' '.isDigit = false by decide),
          digit_ne hc (show '\t'.isDigit = false by decide),
          digit_ne hc (show '\n'.isDigit = false by decide),
          digit_ne hc (show '\r'.isDigit = false by decide)]
      exact ⟨c, cs, h, hblank, digit_ne hc (by decide)⟩

theorem readValue_int (n : ℤ) : ReadsBack (.int n) := by
  intro m rest _ hr
  rw [render, numeral]
  by_cases hn : n < 0
  · rw [if_pos hn, readValue, List.cons_append, skip_cons (by decide)]
    show (readNat (Nat.toDigits 10 n.natAbs ++ rest)).map _ = _
    have habs : -(n.natAbs : ℤ) = n := by omega
    rw [readNat_toDigits _ hr, Option.map_some, habs]
  · have hread := readNat_toDigits n.natAbs hr
    have habs : (n.natAbs : ℤ) = n := by omega
    obtain ⟨c, cs, hdigits, hc⟩ := toDigits_cons n.natAbs
    obtain ⟨_, _, hhead, hblank, -⟩ := render_head (.int n)
    rw [render, numeral, if_neg hn, hdigits] at hhead
    obtain ⟨rfl, -⟩ := List.cons.inj hhead
    rw [hdigits] at hread
    rw [if_neg hn, hdigits, readValue, List.cons_append, skip_cons hblank]
    simp only [digit_ne hc (show '"'.isDigit = false by decide),
      digit_ne hc (show '['.isDigit = false by decide),
      digit_ne hc (show '\x7b'.isDigit = false by decide),
      digit_ne hc (show 'n'.isDigit = false by decide),
      digit_ne hc (show 't'.isDigit = false by decide),
      digit_ne hc (show 'f'.isDigit = false by decide),
      digit_ne hc (show '-'.isDigit = false by decide), if_false]
    rw [← List.cons_append, hread, Option.map_some, habs]

theorem readValue_arr (l : List Json) (h : ∀ a ∈ l, ReadsBack a) : ReadsBack (.arr l) := by
  intro n rest hn _
  cases l with
  | nil => rfl
  | cons a l =>
    rw [render, List.length_cons, List.length_append] at hn
    obtain ⟨m, rfl⟩ := Nat.exists_eq_add_of_lt hn
    obtain ⟨c, cs, hhead, hblank, hne⟩ := render_head a
    have hitems :=
      readItems_render (h a List.mem_cons_self) (fun b hb => h b (List.mem_cons_of_mem a hb))
      (n := (render a).length + (renderItems l).length + m) rest (by omega)
    have hopen : (skip (render a ++ (renderItems l ++ rest))).head? ≠ some ']' := by
      rw [hhead, List.cons_append, skip_cons hblank, List.head?_cons]
      simpa using hne
    rw [render, readValue, List.cons_append, List.append_assoc, skip_cons (by decide)]
    show (if (skip (render a ++ (renderItems l ++ rest))).head? = some ']' then _ else
      (readItems _ (render a ++ (renderItems l ++ rest))).map _) = _
    rw [if_neg hopen, hitems]
    rfl

theorem readValue_obj (l : List (String × Json)) (hkeys : (l.map Prod.fst).Nodup)
    (h : ∀ e ∈ l, ReadsBack e.2) : ReadsBack (.obj l) := by
  intro n rest hn _
  cases l with
  | nil => rfl
  | cons e l =>
    rw [render, List.length_cons, List.length_append, List.length_cons, List.length_append] at hn
    have hlong : (render e.2).length + (renderFields l).length < n := by omega
    obtain ⟨m, rfl⟩ := Nat.exists_eq_add_of_lt hlong
    have hfields :=
      readFields_render (k := e.1) (h e List.mem_cons_self)
      (fun b hb => h b (List.mem_cons_of_mem e hb))
      (n := (render e.2).length + (renderFields l).length + m) rest (by omega)
    have hdict : ((Dict.empty : Dict String Json).setAll Prod.fst Prod.snd (e :: l)).entries =
        e :: l := by
      rw [Dict.setAll_entries Dict.empty _ _ hkeys List.nil_prefix]
      exact List.map_id _
    rw [render, readValue, List.cons_append, List.append_assoc, List.cons_append, List.append_assoc,
      skip_cons (by decide)]
    show (readFields _ (quoted e.1 ++ ':' :: (render e.2 ++ (renderFields l ++ rest)))).map _ = _
    rw [hfields, Option.map_some, hdict]

/-- **a value is read back, whatever follows it** -/
theorem Keyed.readsBack {j : Json} (h : Keyed j) : ReadsBack j := by
  induction h with
  | null => exact fun _ _ _ _ => rfl
  | bool b => cases b <;> exact fun _ _ _ _ => rfl
  | int n => exact readValue_int n
  | str s =>
    intro n rest _ _
    rw [render, readValue, quoted_head, skip_cons (by decide)]
    show (readString (quoted s ++ rest).tail).map _ = _
    rw [readString_quoted]
    rfl
  | arr _ ih => exact readValue_arr _ ih
  | obj hkeys _ ih => exact readValue_obj _ hkeys ih

theorem parse_render {j : Json} (h : Keyed j) : parse (render j) = some j := by
  have hread := h.readsBack (render j).length [] le_rfl (by simp [Stops])
  rw [List.append_nil] at hread
  rw [parse, hread]
  rfl

/-- two values with one rendering are the same -/
theorem render_inj {j j' : Json} (hk : Keyed j) (hk' : Keyed j')
    (h : render j = render j') : j = j' := by
  have hparse := parse_render hk'
  rw [← h, parse_render hk] at hparse
  exact Option.some.inj hparse

end Json

end Lib
