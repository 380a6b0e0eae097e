import Mathlib.Order.Lattice
import Mathlib.Data.List.Pairwise

/-!
# Ordered maps

Maps whose entries are kept in the order of their keys, one entry to a key, so that a
map is its lookups (`ext_lookup`). Layers are put over one another entry by entry
(`extend`), and the upper layer is seen where it says anything (`lookup_extend`).
-/

structure OrderedMap (κ α : Type) [LinearOrder κ] where
  entries : List (κ × α)
  sorted : entries.Pairwise fun x y => x.1 < y.1

namespace OrderedMap

variable {κ α : Type} [LinearOrder κ]

def empty : OrderedMap κ α := ⟨[], .nil⟩

instance : EmptyCollection (OrderedMap κ α) := ⟨empty⟩

instance : Inhabited (OrderedMap κ α) := ⟨empty⟩

theorem ext_entries {m n : OrderedMap κ α} (h : m.entries = n.entries) : m = n := by
  cases m
  cases n
  cases h
  rfl

/-- The value at a key of some entries. -/
def find (k : κ) : List (κ × α) → Option α
  | [] => none
  | (k', a) :: rest => if k' = k then some a else find k rest

def lookup (m : OrderedMap κ α) (k : κ) : Option α := find k m.entries

def keys (m : OrderedMap κ α) : List κ := m.entries.map (·.1)

def size (m : OrderedMap κ α) : Nat := m.entries.length

def isEmpty (m : OrderedMap κ α) : Bool := m.entries.isEmpty

/-- An entry put where its key belongs, in place of the one that was there. -/
def place (k : κ) (a : α) : List (κ × α) → List (κ × α)
  | [] => [(k, a)]
  | (k', a') :: rest =>
      if k < k' then (k, a) :: (k', a') :: rest
      else if k = k' then (k, a) :: rest
      else (k', a') :: place k a rest

theorem mem_place {k : κ} {a : α} {entries : List (κ × α)} {e : κ × α}
    (h : e ∈ place k a entries) : e = (k, a) ∨ e ∈ entries := by
  induction entries with
  | nil => exact .inl (List.mem_singleton.mp h)
  | cons head rest ih =>
      unfold place at h
      split at h
      · exact List.mem_cons.mp h
      · split at h
        · rcases List.mem_cons.mp h with h | h
          · exact .inl h
          · exact .inr (List.mem_cons_of_mem _ h)
        · rcases List.mem_cons.mp h with h | h
          · exact .inr (h ▸ List.mem_cons_self)
          · exact (ih h).imp_right (List.mem_cons_of_mem _)

theorem sorted_place (k : κ) (a : α) {entries : List (κ × α)}
    (h : entries.Pairwise fun x y => x.1 < y.1) :
    (place k a entries).Pairwise fun x y => x.1 < y.1 := by
  induction entries with
  | nil => exact List.pairwise_singleton ..
  | cons head rest ih =>
      obtain ⟨hhead, hrest⟩ := List.pairwise_cons.mp h
      unfold place
      split
      · rename_i hlt
        refine List.pairwise_cons.mpr ⟨fun e he => ?_, h⟩
        rcases List.mem_cons.mp he with rfl | he
        · exact hlt
        · exact hlt.trans (hhead e he)
      · split
        · rename_i heq
          exact List.pairwise_cons.mpr ⟨fun e he => heq ▸ hhead e he, hrest⟩
        · rename_i hnlt hne
          refine List.pairwise_cons.mpr ⟨fun e he => ?_, ih hrest⟩
          rcases mem_place he with rfl | he
          · exact lt_of_le_of_ne (not_lt.mp hnlt) (Ne.symm hne)
          · exact hhead e he

def insert (m : OrderedMap κ α) (k : κ) (a : α) : OrderedMap κ α :=
  ⟨place k a m.entries, sorted_place k a m.sorted⟩

/-- Entries put in one after the other. -/
def extend (m : OrderedMap κ α) (entries : List (κ × α)) : OrderedMap κ α :=
  entries.foldl (fun m e => m.insert e.1 e.2) m

/-! ## Lookups -/

theorem find_place (k k' : κ) (a : α) (entries : List (κ × α)) :
    find k' (place k a entries) = if k = k' then some a else find k' entries := by
  induction entries with
  | nil => rfl
  | cons head rest ih =>
      unfold place
      split
      · rfl
      · split
        · rename_i heq
          subst heq
          by_cases hk : head.1 = k' <;> simp [find, hk]
        · rename_i hne
          by_cases hhead : head.1 = k'
          · rw [find, if_pos hhead, find, if_pos hhead, if_neg (fun h => hne (h.trans hhead.symm))]
          · rw [find, if_neg hhead, ih, find, if_neg hhead]

theorem find_eq_some {k : κ} {a : α} {entries : List (κ × α)}
    (hsorted : entries.Pairwise fun x y => x.1 < y.1) :
    find k entries = some a ↔ (k, a) ∈ entries := by
  induction entries with
  | nil => simp [find]
  | cons head rest ih =>
      obtain ⟨hhead, hrest⟩ := List.pairwise_cons.mp hsorted
      rw [find, List.mem_cons]
      split
      · rename_i hk
        subst hk
        constructor
        · intro h
          exact .inl (Prod.ext rfl (Option.some.inj h).symm)
        · rintro (h | h)
          · rw [← h]
          · exact absurd (hhead _ h) (lt_irrefl _)
      · rename_i hk
        rw [ih hrest]
        refine ⟨.inr, fun h => h.resolve_left fun heq => hk ?_⟩
        rw [← heq]

@[simp] theorem lookup_empty (k : κ) : (∅ : OrderedMap κ α).lookup k = none := rfl

theorem lookup_insert (m : OrderedMap κ α) (k k' : κ) (a : α) :
    (m.insert k a).lookup k' = if k = k' then some a else m.lookup k' := find_place k k' a m.entries

theorem lookup_eq_some {m : OrderedMap κ α} {k : κ} {a : α} :
    m.lookup k = some a ↔ (k, a) ∈ m.entries := find_eq_some m.sorted

/-- **A map is its lookups.** -/
theorem ext_lookup {m n : OrderedMap κ α} (h : ∀ k, m.lookup k = n.lookup k) : m = n := by
  have hmem : ∀ e, e ∈ m.entries ↔ e ∈ n.entries := by
    intro e
    rw [← lookup_eq_some, ← lookup_eq_some, h]
  have hnodup : ∀ m : OrderedMap κ α, m.entries.Nodup := fun m =>
    m.sorted.imp (fun hlt heq => absurd (heq ▸ hlt) (lt_irrefl _))
  have hperm := (List.perm_ext_iff_of_nodup (hnodup m) (hnodup n)).mpr hmem
  refine ext_entries (hperm.eq_of_pairwise ?_ m.sorted n.sorted)
  intro x y _ _ hxy hyx
  exact absurd (hxy.trans hyx) (lt_irrefl _)

/-- **The upper layer is seen where it says anything.** -/
theorem lookup_extend (m upper : OrderedMap κ α) (k : κ) :
    (m.extend upper.entries).lookup k = (upper.lookup k).or (m.lookup k) := by
  obtain ⟨entries, hsorted⟩ := upper
  unfold extend lookup
  induction entries generalizing m with
  | nil => rfl
  | cons head rest ih =>
      obtain ⟨hhead, hrest⟩ := List.pairwise_cons.mp hsorted
      have hnone : find head.1 rest = none := by
        rw [Option.eq_none_iff_forall_ne_some]
        intro a ha
        exact absurd (hhead _ ((find_eq_some hrest).mp ha)) (lt_irrefl _)
      rw [List.foldl_cons, ih (m.insert head.1 head.2) hrest, find]
      have hinsert := lookup_insert m head.1 k head.2
      unfold lookup at hinsert
      rw [hinsert]
      by_cases hk : head.1 = k
      · subst hk
        rw [if_pos rfl, if_pos rfl, hnone]
        rfl
      · rw [if_neg hk, if_neg hk]

theorem isEmpty_iff {m : OrderedMap κ α} : m.isEmpty = true ↔ ∀ k, m.lookup k = none := by
  constructor
  · intro h k
    rw [lookup, List.isEmpty_iff.mp h]
    rfl
  · intro h
    unfold isEmpty
    cases hentries : m.entries with
    | nil => rfl
    | cons head rest =>
        have hnone := h head.1
        rw [lookup, hentries, find, if_pos rfl] at hnone
        cases hnone

end OrderedMap
