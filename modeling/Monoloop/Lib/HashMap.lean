import Mathlib.Data.List.AList

/-!
# Finite maps

The source's `HashMap` is an association list with unique keys. Iteration order
is not part of the contract of a hash map; a function that iterates takes the
order from its caller as a permutation of `keys`.

Every proof reads a map through `lookup`, so the lemmas here say what each
operation does to `lookup` at an arbitrary key.
-/

/-- A finite map with unique keys. -/
abbrev HashMap (κ α : Type) := AList (fun _ : κ => α)

namespace HashMap

variable {κ α : Type} [DecidableEq κ]

/-- Update the value at `k` in place; absent keys stay absent (`get_mut`). -/
def modify (m : HashMap κ α) (k : κ) (f : α → α) : HashMap κ α :=
  match m.lookup k with
  | none => m
  | some x => m.insert k (f x)

/-- An iteration order: some permutation for every list of keys a map may have,
in the order of their insertion. -/
structure IterOrder (κ : Type) where
  order : List κ → List κ
  perm : ∀ ks, (order ks).Perm ks

/-- The keys of a map as an iteration meets them. -/
def IterOrder.keys {κ : Type} {α : Type} (o : IterOrder κ) (m : HashMap κ α) : List κ := o.order m.keys

theorem lookup_insert_ite (m : HashMap κ α) (a b : κ) (x : α) :
    (m.insert b x).lookup a = if a = b then some x else m.lookup a := by
  by_cases h : a = b
  · subst h
    simp [AList.lookup_insert]
  · simp [AList.lookup_insert_ne h, h]

theorem lookup_erase_ite (m : HashMap κ α) (a b : κ) :
    (m.erase b).lookup a = if a = b then none else m.lookup a := by
  by_cases h : a = b
  · subst h
    simp [AList.lookup_erase]
  · simp [AList.lookup_erase_ne h, h]

theorem lookup_modify (m : HashMap κ α) (a b : κ) (f : α → α) :
    (modify m b f).lookup a = if a = b then (m.lookup a).map f else m.lookup a := by
  unfold modify
  cases hb : m.lookup b with
  | none =>
      by_cases h : a = b
      · subst h
        simp [hb]
      · simp [h]
  | some x =>
      rw [lookup_insert_ite]
      by_cases h : a = b
      · subst h
        simp [hb]
      · simp [h]

theorem mem_keys_iff (m : HashMap κ α) (a : κ) : a ∈ m.keys ↔ ∃ x, m.lookup a = some x := by
  rw [← AList.mem_keys, ← AList.lookup_isSome, Option.isSome_iff_exists]

/-- A map is empty exactly when every lookup misses. -/
theorem keys_eq_nil_iff (m : HashMap κ α) : m.keys = [] ↔ ∀ a, m.lookup a = none := by
  rw [List.eq_nil_iff_forall_not_mem]
  refine forall_congr' (fun a => ?_)
  rw [mem_keys_iff]
  cases m.lookup a <;> simp

/-- A fresh key adds one entry, a known key none. -/
theorem length_keys_insert (m : HashMap κ α) (k : κ) (x : α) :
    (m.insert k x).keys.length = m.keys.length + if (m.lookup k).isSome then 0 else 1 := by
  rw [AList.keys_insert, List.length_cons]
  by_cases hk : k ∈ m.keys
  · have hsome : (m.lookup k).isSome = true := AList.lookup_isSome.mpr (AList.mem_keys.mpr hk)
    have hpos := List.length_pos_of_mem hk
    rw [List.length_erase_of_mem hk, hsome]
    show m.keys.length - 1 + 1 = m.keys.length + 0
    omega
  · have hnone : m.lookup k = none := AList.lookup_eq_none.mpr (fun h => hk (AList.mem_keys.mp h))
    rw [List.erase_of_not_mem hk, hnone]
    rfl

/-- How many keys satisfy `p`. -/
def countKeys (m : HashMap κ α) (p : κ → Bool) : Nat := (m.keys.filter p).length

theorem countKeys_insert {m : HashMap κ α} {k : κ} {x : α} (p : κ → Bool)
    (h : m.lookup k = none) :
    countKeys (m.insert k x) p = countKeys m p + if p k then 1 else 0 := by
  have hfresh : k ∉ m.keys := by
    rw [mem_keys_iff, h]
    simp
  unfold countKeys
  rw [AList.keys_insert, List.erase_of_not_mem hfresh, List.filter_cons]
  cases p k <;> simp

theorem countKeys_erase {m : HashMap κ α} {k : κ} {x : α} (p : κ → Bool)
    (h : m.lookup k = some x) :
    countKeys (m.erase k) p + (if p k then 1 else 0) = countKeys m p := by
  have hmem : k ∈ m.keys := (mem_keys_iff m k).mpr ⟨x, h⟩
  have hperm : m.keys.Perm (k :: m.keys.erase k) := List.perm_cons_erase hmem
  unfold countKeys
  rw [AList.keys_erase, (hperm.filter p).length_eq, List.filter_cons]
  cases p k <;> simp

theorem countKeys_erase_le (m : HashMap κ α) (k : κ) (p : κ → Bool) :
    countKeys (m.erase k) p ≤ countKeys m p := by
  unfold countKeys
  rw [AList.keys_erase]
  exact (List.erase_sublist.filter p).length_le

/-- How many values satisfy `p`. -/
def countWhere (m : HashMap κ α) (p : α → Bool) : Nat :=
  m.keys.countP fun k => (m.lookup k).any p

/-- The count sees only what `f` shows of the values. -/
theorem countWhere_congr {β : Type} {m m' : HashMap κ α} (f : α → β) (p : β → Bool)
    (h : ∀ k, (m'.lookup k).map f = (m.lookup k).map f) :
    countWhere m' (fun x => p (f x)) = countWhere m (fun x => p (f x)) := by
  have hkeys : m'.keys.Perm m.keys := by
    rw [List.perm_ext_iff_of_nodup m'.keys_nodup m.keys_nodup]
    intro k
    rw [mem_keys_iff, mem_keys_iff, ← Option.isSome_iff_exists, ← Option.isSome_iff_exists]
    rw [← Option.isSome_map (f := f), h, Option.isSome_map]
  unfold countWhere
  rw [hkeys.countP_eq]
  refine List.countP_congr (fun k _ => ?_)
  have hany : ∀ o : Option α, o.any (fun x => p (f x)) = (o.map f).any p := by
    intro o
    cases o <;> rfl
  rw [hany, hany, h]

theorem countWhere_insert {m : HashMap κ α} {k : κ} (x : α) (p : α → Bool)
    (h : m.lookup k = none) :
    countWhere (m.insert k x) p = countWhere m p + if p x then 1 else 0 := by
  have hfresh : k ∉ m.keys := by
    rw [mem_keys_iff, h]
    simp
  unfold countWhere
  rw [AList.keys_insert, List.erase_of_not_mem hfresh, List.countP_cons, AList.lookup_insert]
  congr 1
  refine List.countP_congr (fun k' hk' => ?_)
  have hne : k' ≠ k := by
    intro heq
    exact hfresh (heq ▸ hk')
  rw [AList.lookup_insert_ne hne]

theorem countWhere_erase {m : HashMap κ α} {k : κ} {x : α} (p : α → Bool)
    (h : m.lookup k = some x) :
    countWhere (m.erase k) p + (if p x then 1 else 0) = countWhere m p := by
  have hmem : k ∈ m.keys := (mem_keys_iff m k).mpr ⟨x, h⟩
  have hperm : m.keys.Perm (k :: m.keys.erase k) := List.perm_cons_erase hmem
  unfold countWhere
  rw [AList.keys_erase, hperm.countP_eq, List.countP_cons, h]
  congr 1
  refine List.countP_congr (fun k' hk' => ?_)
  have hne : k' ≠ k := by
    intro heq
    rw [heq] at hk'
    exact (m.keys_nodup.not_mem_erase) hk'
  rw [AList.lookup_erase_ne hne]

/-- Distinct keys with values satisfying `p` are counted. -/
theorem length_le_countWhere {m : HashMap κ α} {p : α → Bool} {ks : List κ} (hnodup : ks.Nodup)
    (h : ∀ k ∈ ks, (m.lookup k).any p = true) : ks.length ≤ countWhere m p := by
  have hsub : ks ⊆ m.keys.filter fun k => (m.lookup k).any p := by
    intro k hk
    have hp := h k hk
    rw [List.mem_filter, mem_keys_iff]
    refine ⟨?_, hp⟩
    rcases hv : m.lookup k with _ | x
    · simp [hv] at hp
    · exact ⟨x, rfl⟩
  rw [countWhere, List.countP_eq_length_filter]
  exact (List.subperm_of_subset hnodup hsub).length_le

/-- Set the value at `k`: a known key keeps its place in the iteration order. -/
def put (m : HashMap κ α) (k : κ) (x : α) : HashMap κ α :=
  if (m.lookup k).isSome then m.replace k x else m.insert k x

theorem kreplace_cons_eq (k : κ) (x y : α) (l : List (Sigma fun _ : κ => α)) :
    List.kreplace k x (⟨k, y⟩ :: l) = ⟨k, x⟩ :: l :=
  List.lookmap_cons_some _ _ (if_pos rfl)

theorem kreplace_cons_ne {k k' : κ} (h : k ≠ k') (x y : α) (l : List (Sigma fun _ : κ => α)) :
    List.kreplace k x (⟨k', y⟩ :: l) = ⟨k', y⟩ :: List.kreplace k x l :=
  List.lookmap_cons_none _ _ (if_neg h)

theorem lookup_replace_ite (m : HashMap κ α) (a b : κ) (x : α) :
    (m.replace b x).lookup a = if a = b then (m.lookup b).map (fun _ => x) else m.lookup a := by
  show List.dlookup a (List.kreplace b x m.entries) =
    if a = b then (List.dlookup b m.entries).map (fun _ => x) else List.dlookup a m.entries
  induction m.entries with
  | nil => simp [List.kreplace]
  | cons e l ih =>
      obtain ⟨k, y⟩ := e
      by_cases hk : b = k
      · subst hk
        rw [kreplace_cons_eq, List.dlookup_cons_eq]
        by_cases ha : a = b
        · subst ha
          rw [List.dlookup_cons_eq, if_pos rfl, Option.map_some]
        · rw [if_neg ha, List.dlookup_cons_ne _ _ ha, List.dlookup_cons_ne _ _ ha]
      · rw [kreplace_cons_ne hk, List.dlookup_cons_ne l ⟨k, y⟩ hk]
        by_cases ha : a = k
        · subst ha
          rw [List.dlookup_cons_eq, List.dlookup_cons_eq, if_neg (Ne.symm hk)]
        · rw [List.dlookup_cons_ne _ _ ha, List.dlookup_cons_ne _ _ ha]
          exact ih

theorem lookup_put (m : HashMap κ α) (a b : κ) (x : α) :
    (m.put b x).lookup a = if a = b then some x else m.lookup a := by
  unfold put
  cases hb : m.lookup b with
  | none => simp [lookup_insert_ite]
  | some y => simp [lookup_replace_ite, hb]

/-- Setting a value to what it is changes nothing. -/
theorem put_self {m : HashMap κ α} {k : κ} {x : α} (h : m.lookup k = some x) : m.put k x = m := by
  rw [put, h, Option.isSome_some, if_pos rfl]
  apply AList.ext
  show List.kreplace k x m.entries = m.entries
  replace h : List.dlookup k m.entries = some x := h
  revert h
  induction m.entries with
  | nil => exact fun _ => rfl
  | cons e l ih =>
      intro h
      obtain ⟨k', y⟩ := e
      by_cases hk : k = k'
      · subst hk
        rw [List.dlookup_cons_eq] at h
        obtain rfl := Option.some.inj h
        exact kreplace_cons_eq k y y l
      · rw [List.dlookup_cons_ne _ _ hk] at h
        rw [kreplace_cons_ne hk, ih h]

/-- A known key adds no entry. -/
theorem keys_put {m : HashMap κ α} {k : κ} (x : α) (h : (m.lookup k).isSome = true) :
    (m.put k x).keys = m.keys := by
  rw [put, if_pos h, AList.keys_replace]

/-- Two weightings of a list without repetition that differ at `k` only. -/
theorem sum_map_of_eq_off {ks : List κ} (hnodup : ks.Nodup) {k : κ} (hk : k ∈ ks) {f g : κ → Nat}
    (h : ∀ k', k' ≠ k → f k' = g k') :
    (ks.map f).foldr (· + ·) 0 + g k = (ks.map g).foldr (· + ·) 0 + f k := by
  induction ks with
  | nil => cases hk
  | cons k' ks ih =>
      obtain ⟨hk', hks⟩ := List.nodup_cons.mp hnodup
      simp only [List.map_cons, List.foldr_cons]
      by_cases heq : k' = k
      · subst heq
        have hrest : ks.map f = ks.map g := by
          apply List.map_congr_left
          intro k'' hin
          apply h
          rintro rfl
          exact hk' hin
        rw [hrest]
        omega
      · have hrest := ih hks ((List.mem_cons.mp hk).resolve_left (Ne.symm heq))
        have hhead := h k' heq
        omega

/-- The sum of the weights of all values. -/
def total (m : HashMap κ α) (weight : α → Nat) : Nat :=
  (m.keys.map fun k => ((m.lookup k).map weight).getD 0).foldr (· + ·) 0

theorem total_put {m : HashMap κ α} {k : κ} {x : α} (y : α) (weight : α → Nat)
    (h : m.lookup k = some x) : total (m.put k y) weight + weight x = total m weight + weight y := by
  have hk : k ∈ m.keys := (mem_keys_iff m k).mpr ⟨x, h⟩
  unfold total
  rw [keys_put y (by rw [h]; rfl)]
  have hsum := sum_map_of_eq_off m.keys_nodup hk
    (f := fun k' => (((m.put k y).lookup k').map weight).getD 0)
    (g := fun k' => ((m.lookup k').map weight).getD 0)
    (fun k' hne => by simp only [lookup_put, if_neg hne])
  simpa only [lookup_put, if_true, h, Option.map_some, Option.getD_some] using hsum

/-- What an iteration meets are the keys of the map, each once. -/
theorem IterOrder.mem_keys (o : IterOrder κ) (m : HashMap κ α) (k : κ) :
    k ∈ o.keys m ↔ ∃ x, m.lookup k = some x := by
  rw [← mem_keys_iff]
  exact (o.perm m.keys).mem_iff

theorem IterOrder.nodup_keys {K X : Type} (o : IterOrder K) (m : HashMap K X) :
    (o.keys m).Nodup :=
  (o.perm m.keys).nodup_iff.mpr m.keys_nodup

/-- Two iterations of a map meet the same keys. -/
theorem IterOrder.keys_perm {K X : Type} (o o' : IterOrder K) (m : HashMap K X) :
    (o.keys m).Perm (o'.keys m) :=
  (o.perm m.keys).trans (o'.perm m.keys).symm

/-- What two iterations give out is the same when one key at most gives out anything. -/
theorem IterOrder.filterMap_keys {K X Y : Type} (o o' : IterOrder K) {m : HashMap K X}
    {f : K → Option Y} (h : ∀ k k', (f k).isSome = true → (f k').isSome = true → k = k') :
    (o.keys m).filterMap f = (o'.keys m).filterMap f := by
  have hperm := (o.keys_perm o' m).filterMap f
  have hshort : ((o.keys m).filterMap f).length ≤ 1 := by
    rw [List.length_filterMap_eq_countP, List.countP_eq_length_filter]
    have hnodup : ((o.keys m).filter fun k => (f k).isSome).Nodup := (o.nodup_keys m).filter _
    have halike : ∀ k ∈ (o.keys m).filter (fun k => (f k).isSome),
        ∀ k' ∈ (o.keys m).filter (fun k => (f k).isSome), k = k' := by
      intro k hk k' hk'
      exact h k k' (List.mem_filter.mp hk).2 (List.mem_filter.mp hk').2
    match hlist : (o.keys m).filter fun k => (f k).isSome with
    | [] => simp
    | [k] => simp
    | k :: k' :: rest =>
        rw [hlist] at hnodup halike
        have heq := halike k (by simp) k' (by simp)
        subst heq
        simp at hnodup
  match hlist : (o.keys m).filterMap f with
  | [] =>
      rw [hlist] at hperm
      exact hperm.nil_eq
  | [y] =>
      rw [hlist] at hperm
      exact (List.perm_singleton.mp hperm.symm).symm
  | y :: y' :: rest =>
      rw [hlist] at hshort
      simp at hshort

end HashMap
