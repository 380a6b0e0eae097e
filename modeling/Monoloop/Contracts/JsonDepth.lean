import Monoloop.Interpreter.Fragment

/-!
# The depth of JSON values

`input.rs` and `config.rs` count the levels of a value, `validation.rs` walks down with a
counter and compares it with the bound. Both are compared here with `HasLevel`: a value
has level `n` when `n` steps from a container to something in it are possible.

The first count begins at one and the second at zero.
-/

namespace Monoloop

open Interpreter (Json)

/-! ## The two checks -/

mutual

/-- `json_depth`, of `input.rs` and of `config.rs`. -/
def jsonDepth : Json → Nat
  | .array items => 1 + itemsDepth items
  | .object fields => 1 + fieldsDepth fields
  | .null | .bool _ | .number _ | .string _ => 1

/-- `items.iter().map(json_depth).max().unwrap_or(0)` -/
def itemsDepth : List Json → Nat
  | [] => 0
  | v :: rest => max (jsonDepth v) (itemsDepth rest)

/-- `map.values().map(json_depth).max().unwrap_or(0)` -/
def fieldsDepth : List (String × Json) → Nat
  | [] => 0
  | (_, v) :: rest => max (jsonDepth v) (fieldsDepth rest)

end

mutual

def jsonDepthOk (v : Json) (depth max : Nat) : Bool :=
  if max < depth then false
  else
    match v with
    | .array items => itemsDepthOk items (depth + 1) max
    | .object fields => fieldsDepthOk fields (depth + 1) max
    | .null | .bool _ | .number _ | .string _ => true

/-- `items.iter().all(|v| json_depth_ok(v, depth, max))` -/
def itemsDepthOk (items : List Json) (depth max : Nat) : Bool :=
  match items with
  | [] => true
  | v :: rest => jsonDepthOk v depth max && itemsDepthOk rest depth max

/-- `map.values().all(|v| json_depth_ok(v, depth, max))` -/
def fieldsDepthOk (fields : List (String × Json)) (depth max : Nat) : Bool :=
  match fields with
  | [] => true
  | (_, v) :: rest => jsonDepthOk v depth max && fieldsDepthOk rest depth max

end

/-! ## Levels -/

/-- What a container holds. -/
def inside : Json → List Json
  | .array items => items
  | .object fields => fields.map (·.2)
  | _ => []

/-- `n` steps into containers are possible. -/
def HasLevel : Nat → Json → Prop
  | 0, _ => True
  | n + 1, v => ∃ item ∈ inside v, HasLevel n item

theorem lt_itemsDepth {n : Nat} {items : List Json} :
    n < itemsDepth items ↔ ∃ item ∈ items, n < jsonDepth item := by
  induction items with
  | nil => simp [itemsDepth]
  | cons v rest ih => rw [itemsDepth, lt_max_iff, ih, List.exists_mem_cons_iff]

theorem lt_fieldsDepth {n : Nat} {fields : List (String × Json)} :
    n < fieldsDepth fields ↔ ∃ item ∈ fields.map (·.2), n < jsonDepth item := by
  induction fields with
  | nil => simp [fieldsDepth]
  | cons field rest ih =>
      obtain ⟨k, v⟩ := field
      rw [fieldsDepth, lt_max_iff, ih, List.map_cons, List.exists_mem_cons_iff]

theorem succ_lt_jsonDepth {n : Nat} {v : Json} :
    n + 1 < jsonDepth v ↔ ∃ item ∈ inside v, n < jsonDepth item := by
  cases v with
  | array items => rw [jsonDepth, inside, ← lt_itemsDepth]; omega
  | object fields => rw [jsonDepth, inside, ← lt_fieldsDepth]; omega
  | null | bool _ | number _ | string _ => simp [jsonDepth, inside]

/-- **`json_depth` is one more than the deepest level.** -/
theorem lt_jsonDepth_iff {n : Nat} {v : Json} : n < jsonDepth v ↔ HasLevel n v := by
  induction n generalizing v with
  | zero =>
      have hpos : 0 < jsonDepth v := by cases v <;> simp only [jsonDepth] <;> omega
      simp [HasLevel, hpos]
  | succ n ih =>
      rw [succ_lt_jsonDepth, HasLevel]
      exact exists_congr fun item => and_congr_right fun _ => ih

theorem itemsDepthOk_iff {items : List Json} {depth max : Nat} :
    itemsDepthOk items depth max = true ↔ ∀ item ∈ items, jsonDepthOk item depth max = true := by
  induction items with
  | nil => simp [itemsDepthOk]
  | cons v rest ih => rw [itemsDepthOk, Bool.and_eq_true, ih, List.forall_mem_cons]

theorem fieldsDepthOk_iff {fields : List (String × Json)} {depth max : Nat} :
    fieldsDepthOk fields depth max = true ↔
      ∀ item ∈ fields.map (·.2), jsonDepthOk item depth max = true := by
  induction fields with
  | nil => simp [fieldsDepthOk]
  | cons field rest ih =>
      obtain ⟨k, v⟩ := field
      rw [fieldsDepthOk, Bool.and_eq_true, ih, List.map_cons, List.forall_mem_cons]

theorem jsonDepthOk_succ {v : Json} {depth max : Nat} (h : depth ≤ max) :
    jsonDepthOk v depth max = true ↔ ∀ item ∈ inside v, jsonDepthOk item (depth + 1) max = true := by
  have hle : ¬ max < depth := Nat.not_lt.mpr h
  cases v with
  | array items =>
      rw [jsonDepthOk, if_neg hle]
      exact itemsDepthOk_iff
  | object fields =>
      rw [jsonDepthOk, if_neg hle]
      exact fieldsDepthOk_iff
  | null | bool _ | number _ | string _ => simp [jsonDepthOk, inside, hle]

/-- **`json_depth_ok` with `n` levels to go refuses the values with level `n`.** -/
theorem jsonDepthOk_iff {n depth max : Nat} {v : Json} (h : depth + n = max + 1) :
    jsonDepthOk v depth max = true ↔ ¬ HasLevel n v := by
  induction n generalizing depth v with
  | zero =>
      unfold jsonDepthOk
      rw [if_pos (by omega)]
      simp [HasLevel]
  | succ n ih =>
      rw [jsonDepthOk_succ (by omega), HasLevel, not_exists]
      refine forall_congr' fun item => ?_
      rw [not_and, ih (by omega)]

/-! ## Where they agree -/

/-- The dispatcher's check of a value against a bound. -/
theorem jsonDepthOk_zero_iff (v : Json) (m : Nat) :
    jsonDepthOk v 0 m = true ↔ jsonDepth v ≤ m + 1 := by
  rw [jsonDepthOk_iff (n := m + 1) (by omega), ← lt_jsonDepth_iff, Nat.not_lt]

/-- **The two checks agree on a value exactly when its deepest level is not the bound.** -/
theorem depthChecks_agree_iff (v : Json) (m : Nat) :
    (jsonDepthOk v 0 m = true ↔ jsonDepth v ≤ m) ↔ ¬ (HasLevel m v ∧ ¬ HasLevel (m + 1) v) := by
  rw [jsonDepthOk_zero_iff, ← lt_jsonDepth_iff, ← lt_jsonDepth_iff]
  constructor
  · rintro hagree ⟨hm, hdeep⟩
    have hle := hagree.mp (by omega)
    omega
  · intro hlevel
    constructor
    · intro hle
      by_contra hlt
      exact hlevel ⟨by omega, by omega⟩
    · intro hle
      omega

/-- `n` arrays in one another. -/
def nestedArrays : Nat → Json
  | 0 => .array []
  | n + 1 => .array [nestedArrays n]

/-- **A value only one check admits**: seventeen arrays, at the default bound. -/
theorem depthChecks_disagree :
    jsonDepthOk (nestedArrays 16) 0 16 = true ∧ ¬ jsonDepth (nestedArrays 16) ≤ 16 := by
  rw [jsonDepthOk_zero_iff]
  have hdepth : jsonDepth (nestedArrays 16) = 17 := by decide +kernel
  omega

end Monoloop
