import Maais.Lib.Json
import Maais.Lib.Keyed

/-!
# Canonical JSON

`freeze_json` turns a tree of Python values into mappings, tuples and scalars, `to_json_data` makes
it mutable again, and `canonical_json_bytes` is its compact text with sorted keys. Values it does
not take (floats are not in the trees, and decimals that are not finite, datetimes that are not UTC
or keys that are no strings raise) cannot be built here.

* `Reorders`  another order of mapping keys and set items, anywhere in the tree;
* `canonicalJson_stable`  one tree, one text.
-/

namespace Maais
open Lib

/-! ## values -/

/-- a nonzero coefficient and an exponent in the default context: 28 digits, and a last place no
smaller than that of the smallest values -/
def Decimal.fixed (coefficient : ℕ) (exponent : ℤ) : ℕ × ℤ :=
  let least := max (exponent + (Nat.toDigits 10 coefficient).length - 28) (-1000026)
  if exponent < least then
    let unit := 10 ^ (least - exponent).toNat
    let q := coefficient / unit
    let r := coefficient % unit
    (if 2 * r < unit ∨ 2 * r = unit ∧ q % 2 = 0 then q else q + 1, least)
  else (coefficient, exponent)

/-- a finite `Decimal` that does not overflow in the default context -/
structure Decimal where
  negative : Bool
  coefficient : ℕ
  exponent : ℤ
  representable : coefficient ≠ 0 →
    (Decimal.fixed coefficient exponent).2 +
    (Nat.toDigits 10 (Decimal.fixed coefficient exponent).1).length ≤ 1000000

/-- the zeros at the end of a coefficient go to its exponent -/
def Decimal.stripped (coefficient : ℕ) (exponent : ℤ) : ℕ × ℤ :=
  if coefficient = 0 then (0, 0)
  else if coefficient % 10 = 0 then stripped (coefficient / 10) (exponent + 1)
  else (coefficient, exponent)
termination_by coefficient
decreasing_by omega

def padded (width n : ℕ) : List Char :=
  List.replicate (width - (Nat.toDigits 10 n).length) '0' ++ Nat.toDigits 10 n

/-- `"0"`, or `format(value.normalize(), "f")` -/
def Decimal.text (d : Decimal) : String :=
  if d.coefficient = 0 then "0"
  else
    let (c, e) := stripped (fixed d.coefficient d.exponent).1 (fixed d.coefficient d.exponent).2
    let digits :=
      if 0 ≤ e then Nat.toDigits 10 c ++ List.replicate e.toNat '0'
      else Nat.toDigits 10 (c / 10 ^ (-e).toNat) ++ '.' :: padded (-e).toNat (c % 10 ^ (-e).toNat)
    String.ofList (if d.negative then '-' :: digits else digits)

structure UtcDatetime where
  year : ℕ
  month : ℕ
  day : ℕ
  hour : ℕ
  minute : ℕ
  second : ℕ
  microsecond : ℕ

/-- `_utc_iso` -/
def UtcDatetime.utcIso (t : UtcDatetime) : String :=
  String.ofList (padded 4 t.year ++ '-' :: padded 2 t.month ++ '-' :: padded 2 t.day ++ 'T' ::
    padded 2 t.hour ++ ':' :: padded 2 t.minute ++ ':' :: padded 2 t.second ++
    (if t.microsecond = 0 then [] else '.' :: padded 6 t.microsecond) ++ ['Z'])

/-- `str(uuid)`: the hexadecimal digits in groups -/
def uuidText (u : BitVec 128) : String :=
  let digits :=
    List.replicate (32 - (Nat.toDigits 16 u.toNat).length) '0' ++ Nat.toDigits 16 u.toNat
  String.ofList (digits.take 8 ++ '-' :: (digits.drop 8).take 4 ++ '-' :: (digits.drop 12).take 4 ++
    '-' :: (digits.drop 16).take 4 ++ '-' :: digits.drop 20)

/-- what `freeze_json` takes, floats apart -/
inductive JsonTree where
  | enum (value : JsonTree)
  | decimal (d : Decimal)
  | datetime (t : UtcDatetime)
  | uuid (u : BitVec 128)
  | none
  | str (s : String)
  | bool (b : Bool)
  | int (n : ℤ)
  | mapping (items : List (String × JsonTree))
  | set (items : List JsonTree)
  | sequence (items : List JsonTree)

/-- `JsonValue`: immutable -/
inductive FrozenJson where
  | none
  | str (s : String)
  | bool (b : Bool)
  | int (n : ℤ)
  | mapping (items : List (String × FrozenJson))
  | tuple (items : List FrozenJson)

/-! ## the functions -/

mutual
/-- the inner function of `to_json_data`; a `MutableJsonValue` is a document -/
def thaw : FrozenJson → Json
  | .none => .null
  | .str s => .str s
  | .bool b => .bool b
  | .int n => .int n
  | .mapping l => .obj (thawFields l)
  | .tuple l => .arr (thawItems l)
def thawItems : List FrozenJson → List Json
  | [] => []
  | w :: l => thaw w :: thawItems l
def thawFields : List (String × FrozenJson) → List (String × Json)
  | [] => []
  | (k, w) :: l => (k, thaw w) :: thawFields l
end

/-- `json.dumps(..., sort_keys=True, separators=(",", ":"), ensure_ascii=False).encode("utf-8")` -/
def dumps (data : Json) : ByteArray := (String.ofList data.ordered.render).toUTF8

/-- `canonical_json_bytes` of a frozen value: freezing it again changes nothing
(`freezeJson_tree`) -/
def frozenBytes (w : FrozenJson) : List ℕ := (dumps (thaw w)).data.toList.map UInt8.toNat

mutual
def freezeJson : JsonTree → FrozenJson
  | .enum v => freezeJson v
  | .decimal d => .str d.text
  | .datetime t => .str t.utcIso
  | .uuid u => .str (uuidText u)
  | .none => .none
  | .str s => .str s
  | .bool b => .bool b
  | .int n => .int n
  | .mapping l => .mapping (freezeFields l)
  | .set l => .tuple ((freezeItems l).insertionSort (fun w w' => frozenBytes w ≤ frozenBytes w'))
  | .sequence l => .tuple (freezeItems l)
def freezeItems : List JsonTree → List FrozenJson
  | [] => []
  | v :: l => freezeJson v :: freezeItems l
def freezeFields : List (String × JsonTree) → List (String × FrozenJson)
  | [] => []
  | (k, v) :: l => (k, freezeJson v) :: freezeFields l
end

def toJsonData (v : JsonTree) : Json := thaw (freezeJson v)

def canonicalJsonBytes (v : JsonTree) : ByteArray := dumps (toJsonData v)

def loads (bytes : ByteArray) : Option Json :=
  (String.fromUTF8? bytes).bind (fun s => Json.parse s.toList)

mutual
def FrozenJson.tree : FrozenJson → JsonTree
  | .none => .none
  | .str s => .str s
  | .bool b => .bool b
  | .int n => .int n
  | .mapping l => .mapping (FrozenJson.treeFields l)
  | .tuple l => .sequence (FrozenJson.treeItems l)
def FrozenJson.treeItems : List FrozenJson → List JsonTree
  | [] => []
  | w :: l => w.tree :: FrozenJson.treeItems l
def FrozenJson.treeFields : List (String × FrozenJson) → List (String × JsonTree)
  | [] => []
  | (k, w) :: l => (k, w.tree) :: FrozenJson.treeFields l
end

mutual
def jsonTree : Json → JsonTree
  | .null => .none
  | .str s => .str s
  | .bool b => .bool b
  | .int n => .int n
  | .obj l => .mapping (jsonTreeFields l)
  | .arr l => .sequence (jsonTreeItems l)
def jsonTreeItems : List Json → List JsonTree
  | [] => []
  | j :: l => jsonTree j :: jsonTreeItems l
def jsonTreeFields : List (String × Json) → List (String × JsonTree)
  | [] => []
  | (k, j) :: l => (k, jsonTree j) :: jsonTreeFields l
end

/-! ## freezing and thawing -/

mutual
theorem freezeJson_tree : ∀ w : FrozenJson, freezeJson w.tree = w
  | .none | .str _ | .bool _ | .int _ => rfl
  | .mapping l => by rw [FrozenJson.tree, freezeJson, freezeFields_tree l]
  | .tuple l => by rw [FrozenJson.tree, freezeJson, freezeItems_tree l]
theorem freezeItems_tree : ∀ l : List FrozenJson, freezeItems (FrozenJson.treeItems l) = l
  | [] => rfl
  | w :: l => by rw [FrozenJson.treeItems, freezeItems, freezeJson_tree w, freezeItems_tree l]
theorem freezeFields_tree : ∀ l : List (String × FrozenJson),
    freezeFields (FrozenJson.treeFields l) = l
  | [] => rfl
  | (k, w) :: l => by rw [FrozenJson.treeFields, freezeFields, freezeJson_tree w,
    freezeFields_tree l]
end

mutual
theorem toJsonData_tree : ∀ j : Json, thaw (freezeJson (jsonTree j)) = j
  | .null | .str _ | .bool _ | .int _ => rfl
  | .obj l => by rw [jsonTree, freezeJson, thaw, thawFields_tree l]
  | .arr l => by rw [jsonTree, freezeJson, thaw, thawItems_tree l]
theorem thawItems_tree : ∀ l : List Json, thawItems (freezeItems (jsonTreeItems l)) = l
  | [] => rfl
  | j :: l => by rw [jsonTreeItems, freezeItems, thawItems, toJsonData_tree j, thawItems_tree l]
theorem thawFields_tree : ∀ l : List (String × Json),
    thawFields (freezeFields (jsonTreeFields l)) = l
  | [] => rfl
  | (k, j) :: l => by rw [jsonTreeFields, freezeFields, thawFields, toJsonData_tree j,
    thawFields_tree l]
end

theorem freezeItems_eq (l : List JsonTree) : freezeItems l = l.map freezeJson := by
  induction l with
  | nil => rfl
  | cons v l ih => rw [freezeItems, ih, List.map_cons]

theorem freezeFields_eq (l : List (String × JsonTree)) :
    freezeFields l = l.map (fun e => (e.1, freezeJson e.2)) := by
  induction l with
  | nil => rfl
  | cons e l ih => rw [freezeFields, ih, List.map_cons]

theorem thawItems_eq (l : List FrozenJson) : thawItems l = l.map thaw := by
  induction l with
  | nil => rfl
  | cons w l ih => rw [thawItems, ih, List.map_cons]

theorem thawFields_eq (l : List (String × FrozenJson)) :
    thawFields l = l.map (fun e => (e.1, thaw e.2)) := by
  induction l with
  | nil => rfl
  | cons e l ih => rw [thawFields, ih, List.map_cons]

/-! ## the document of a tree -/

/-- the document whose text `canonical_json_bytes` is -/
def canonical (v : JsonTree) : Json := (toJsonData v).ordered

def textBytes (j : Json) : List ℕ := (String.ofList j.render).toUTF8.data.toList.map UInt8.toNat

theorem textBytes_inj {j j' : Json} (hj : j.Keyed) (hj' : j'.Keyed)
    (h : textBytes j = textBytes j') : j = j' := by
  have hbytes := List.map_injective_iff.mpr (fun _ _ => UInt8.toNat_inj.mp) h
  have htext := String.toByteArray_inj.mp (ByteArray.ext (Array.toList_inj.mp hbytes))
  exact Json.render_inj hj hj' (String.ofList_injective htext)

theorem canonical_mapping (l : List (String × JsonTree)) :
    canonical (.mapping l) =
      .obj ((l.map (fun e => (e.1, canonical e.2))).insertionSort (fun e e' => e.1 ≤ e'.1)) := by
  rw [canonical, toJsonData, freezeJson, thaw, Json.ordered, Json.orderedFields_eq, thawFields_eq,
    freezeFields_eq, List.map_map, List.map_map]
  rfl

theorem canonical_sequence (l : List JsonTree) :
    canonical (.sequence l) = .arr (l.map canonical) := by
  rw [canonical, toJsonData, freezeJson, thaw, Json.ordered, Json.orderedItems_eq, thawItems_eq,
    freezeItems_eq, List.map_map, List.map_map]
  rfl

theorem canonical_set (l : List JsonTree) :
    canonical (.set l) = .arr
    ((l.map canonical).insertionSort (fun j j' => textBytes j ≤ textBytes j')) := by
  have hsort := List.map_insertionSort (fun w w' => frozenBytes w ≤ frozenBytes w')
    (fun j j' => textBytes j ≤ textBytes j') (fun w => (thaw w).ordered) (l.map freezeJson)
      (fun _ _ _ _ => Iff.rfl)
  rw [List.map_map] at hsort
  rw [canonical, toJsonData, freezeJson, thaw, Json.ordered, Json.orderedItems_eq, thawItems_eq,
    freezeItems_eq, List.map_map]
  exact congrArg Json.arr hsort

inductive JsonTree.Keyed : JsonTree → Prop
  | enum {v : JsonTree} (h : Keyed v) : Keyed (.enum v)
  | decimal (d : Decimal) : Keyed (.decimal d)
  | datetime (t : UtcDatetime) : Keyed (.datetime t)
  | uuid (u : BitVec 128) : Keyed (.uuid u)
  | none : Keyed .none
  | str (s : String) : Keyed (.str s)
  | bool (b : Bool) : Keyed (.bool b)
  | int (n : ℤ) : Keyed (.int n)
  | mapping {l : List (String × JsonTree)} (hkeys : (l.map Prod.fst).Nodup)
    (h : ∀ e ∈ l, Keyed e.2) : Keyed (.mapping l)
  | set {l : List JsonTree} (h : ∀ v ∈ l, Keyed v) : Keyed (.set l)
  | sequence {l : List JsonTree} (h : ∀ v ∈ l, Keyed v) : Keyed (.sequence l)

theorem JsonTree.Keyed.canonical {v : JsonTree} (h : v.Keyed) : (canonical v).Keyed := by
  induction h with
  | enum _ ih => exact ih
  | decimal | datetime | uuid | str => exact .str _
  | none => exact .null
  | bool b => exact .bool b
  | int n => exact .int n
  | @mapping l hkeys _ ih =>
    rw [canonical_mapping]
    have hperm := List.perm_insertionSort (fun e e' : String × Json => e.1 ≤ e'.1)
      (l.map (fun e => (e.1, Maais.canonical e.2)))
    refine .obj ?_ fun e he => ?_
    · rw [(hperm.map Prod.fst).nodup_iff, List.map_map]
      exact hkeys
    · obtain ⟨x, hx, rfl⟩ := List.mem_map.mp (hperm.mem_iff.mp he)
      exact ih x hx
  | @set l _ ih =>
    rw [canonical_set]
    refine .arr fun j hj => ?_
    obtain ⟨x, hx, rfl⟩ := List.mem_map.mp ((List.perm_insertionSort _ _).mem_iff.mp hj)
    exact ih x hx
  | @sequence l _ ih =>
    rw [canonical_sequence]
    refine .arr fun j hj => ?_
    obtain ⟨x, hx, rfl⟩ := List.mem_map.mp hj
    exact ih x hx

/-! ## another order -/

inductive Reorders : JsonTree → JsonTree → Prop
  | mapping {l l' : List (String × JsonTree)} (h : l.Perm l') : Reorders (.mapping l) (.mapping l')
  | set {l l' : List JsonTree} (h : l.Perm l') : Reorders (.set l) (.set l')
  | inEnum {v v' : JsonTree} (h : Reorders v v') : Reorders (.enum v) (.enum v')
  | inMapping {v v' : JsonTree} (h : Reorders v v') (k : String) (l l' : List (String × JsonTree)) :
    Reorders (.mapping (l ++ (k, v) :: l')) (.mapping (l ++ (k, v') :: l'))
  | inSet {v v' : JsonTree} (h : Reorders v v') (l l' : List JsonTree) :
    Reorders (.set (l ++ v :: l')) (.set (l ++ v' :: l'))
  | inSequence {v v' : JsonTree} (h : Reorders v v') (l l' : List JsonTree) :
    Reorders (.sequence (l ++ v :: l')) (.sequence (l ++ v' :: l'))
  | trans {v v' v'' : JsonTree} (h : Reorders v v') (h' : Reorders v' v'') : Reorders v v''

theorem forall_mem_replaced {α : Type} {P : α → Prop} {a b : α} {l l' : List α}
    (h : ∀ x ∈ l ++ a :: l', P x) (hb : P b) : ∀ x ∈ l ++ b :: l', P x := by
  simp only [List.forall_mem_append, List.forall_mem_cons] at h ⊢
  exact ⟨h.1, hb, h.2.2⟩

/-- **another order gives the same document** -/
theorem Reorders.canonical {v v' : JsonTree} (h : Reorders v v') (hv : v.Keyed) :
    v'.Keyed ∧ Maais.canonical v' = Maais.canonical v := by
  induction h with
  | @mapping l l' hperm =>
    cases hv with
    | mapping hkeys hitems =>
      refine ⟨.mapping ((hperm.map _).nodup_iff.mp hkeys) fun e he =>
        hitems e (hperm.mem_iff.mpr he), ?_⟩
      have hnodup : ((l.map (fun e => (e.1, Maais.canonical e.2))).map Prod.fst).Nodup := by
        rw [List.map_map]
        exact hkeys
      rw [canonical_mapping, canonical_mapping, insertionSort_eq_of_perm (hperm.map _) hnodup]
  | @set l l' hperm =>
    cases hv with
    | set hitems =>
      refine ⟨.set fun x hx => hitems x (hperm.mem_iff.mpr hx), ?_⟩
      rw [canonical_set, canonical_set, insertionSort_eq_of_injOn (hperm.map _)]
      intro j hj j' hj' heq
      obtain ⟨x, hx, rfl⟩ := List.mem_map.mp hj
      obtain ⟨x', hx', rfl⟩ := List.mem_map.mp hj'
      exact textBytes_inj (hitems x hx).canonical (hitems x' hx').canonical heq
  | inEnum _ ih =>
    cases hv with
    | enum hv => exact ⟨.enum (ih hv).1, (ih hv).2⟩
  | @inMapping v v' _ k l l' ih =>
    cases hv with
    | mapping hkeys hitems =>
      obtain ⟨hkeyed, heq⟩ := ih (hitems (k, v) (by simp))
      refine ⟨.mapping (by simpa using hkeys) (forall_mem_replaced hitems hkeyed), ?_⟩
      rw [canonical_mapping, canonical_mapping, List.map_append, List.map_append, List.map_cons,
        List.map_cons, heq]
  | @inSet v v' _ l l' ih =>
    cases hv with
    | set hitems =>
      obtain ⟨hkeyed, heq⟩ := ih (hitems v (by simp))
      refine ⟨.set (forall_mem_replaced hitems hkeyed), ?_⟩
      rw [canonical_set, canonical_set, List.map_append, List.map_append, List.map_cons,
        List.map_cons, heq]
  | @inSequence v v' _ l l' ih =>
    cases hv with
    | sequence hitems =>
      obtain ⟨hkeyed, heq⟩ := ih (hitems v (by simp))
      refine ⟨.sequence (forall_mem_replaced hitems hkeyed), ?_⟩
      rw [canonical_sequence, canonical_sequence, List.map_append, List.map_append, List.map_cons,
        List.map_cons, heq]
  | trans _ _ ih ih' =>
    obtain ⟨hmid, heq⟩ := ih hv
    obtain ⟨hlast, heq'⟩ := ih' hmid
    exact ⟨hlast, heq'.trans heq⟩

/-! ## one text -/

theorem loads_bytes {j : Json} (h : j.Keyed) : loads (String.ofList j.render).toUTF8 = some j := by
  have hdecode : String.fromUTF8? (String.ofList j.render).toUTF8 = some (String.ofList j.render) :=
    dif_pos (String.ofList j.render).isValidUTF8
  rw [loads, hdecode, Option.bind_some, String.toList_ofList, Json.parse_render h]

/-- **one tree, one text**: freezing is idempotent, the bytes do not depend on the order of mapping
keys and set items, nor on whether the value was frozen or thawed before, and they are read back as
a value with the same bytes -/
theorem canonicalJson_stable (v : JsonTree) (hv : v.Keyed) :
    freezeJson (freezeJson v).tree = freezeJson v ∧
    (∀ v', Reorders v v' → canonicalJsonBytes v' = canonicalJsonBytes v) ∧
    canonicalJsonBytes (freezeJson v).tree = canonicalJsonBytes v ∧
    canonicalJsonBytes (jsonTree (toJsonData v)) = canonicalJsonBytes v ∧
    ∃ j, loads (canonicalJsonBytes v) = some j ∧
        canonicalJsonBytes (jsonTree j) = canonicalJsonBytes v := by
  have hbytes (u : JsonTree) : canonicalJsonBytes u = (String.ofList (canonical u).render).toUTF8 :=
    rfl
  refine ⟨freezeJson_tree _, fun v' h => ?_, ?_, ?_, canonical v, loads_bytes hv.canonical, ?_⟩
  · rw [hbytes, hbytes, (h.canonical hv).2]
  · rw [canonicalJsonBytes, toJsonData, freezeJson_tree]
    rfl
  · rw [canonicalJsonBytes, toJsonData, toJsonData_tree]
    rfl
  · rw [canonicalJsonBytes, toJsonData, toJsonData_tree, dumps, canonical, Json.ordered_ordered]
    rfl

/-- **one text, one document**: two values have the same bytes exactly when they are the same
document up to the order of its keys -/
theorem canonicalJsonBytes_eq_iff (v v' : JsonTree) (hv : v.Keyed) (hv' : v'.Keyed) :
    canonicalJsonBytes v = canonicalJsonBytes v' ↔
    (toJsonData v).ordered = (toJsonData v').ordered := by
  constructor
  · intro h
    apply textBytes_inj hv.canonical hv'.canonical
    show (canonicalJsonBytes v).data.toList.map UInt8.toNat =
      (canonicalJsonBytes v').data.toList.map UInt8.toNat
    rw [h]
  · intro h
    rw [canonicalJsonBytes, canonicalJsonBytes, dumps, dumps, h]

/-! ## a set in a mapping -/

namespace Demo

/-- a decimal with zeros at its end, and a set of a text and a number -/
def sampleTree : JsonTree :=
  .mapping [("b", .set [.str "\n", .int (-7)]),
    ("a", .sequence [.decimal ⟨false, 1500, -3, by decide⟩, .bool true])]

theorem sampleTree_keyed : sampleTree.Keyed := by
  refine .mapping (by decide) ?_
  rintro e he
  rcases List.mem_cons.mp he with rfl | he
  · refine .set ?_
    simp only [List.forall_mem_cons]
    exact ⟨.str _, .int _, nofun⟩
  · rw [List.mem_singleton.mp he]
    refine .sequence ?_
    simp only [List.forall_mem_cons]
    exact ⟨.decimal _, .bool _, nofun⟩

theorem sampleTree_stable : ∃ j, loads (canonicalJsonBytes sampleTree) = some j ∧
    canonicalJsonBytes (jsonTree j) = canonicalJsonBytes sampleTree :=
  (canonicalJson_stable sampleTree sampleTree_keyed).2.2.2.2

theorem sampleTree_ne : canonicalJsonBytes sampleTree ≠ canonicalJsonBytes (.int 7) := by
  intro h
  have hsame := (canonicalJsonBytes_eq_iff sampleTree (.int 7) sampleTree_keyed (.int 7)).mp h
  cases hsame

end Demo

end Maais
