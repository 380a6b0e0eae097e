import Mathlib.Data.List.Basic

/-!
# Framing a stream that arrives in chunks

A framer takes the first complete frame off the front of a buffer. It is well
behaved when a frame it has found does not depend on what arrives later
(`stable`) and every frame takes something off the buffer (`shrink`). Then
draining the buffer after every chunk gives the frames of the whole stream,
however the stream is cut: `drain_append` for one cut, `feed_eq` for a list of
chunks.
-/

namespace Framing

structure Framer (β φ : Type) where
  next : List β → Option (φ × List β)
  shrink : ∀ {b f r}, next b = some (f, r) → r.length < b.length
  stable : ∀ {b f r}, next b = some (f, r) → ∀ c, next (b ++ c) = some (f, r ++ c)

namespace Framer

variable {β φ : Type} (F : Framer β φ)

/-- Take frames off the buffer until there is none. -/
def drain (b : List β) : List φ × List β :=
  match h : F.next b with
  | none => ([], b)
  | some (f, r) =>
      have := F.shrink h
      (f :: (drain r).1, (drain r).2)
termination_by b.length

/-- Drain after every chunk. -/
def feed (b : List β) : List (List β) → List φ × List β
  | [] => ([], b)
  | c :: cs =>
      let r := F.drain (b ++ c)
      let t := feed r.2 cs
      (r.1 ++ t.1, t.2)

variable {F}

theorem drain_none {b : List β} (h : F.next b = none) : F.drain b = ([], b) := by
  unfold drain
  split
  · rfl
  · rename_i hs
    rw [h] at hs
    cases hs

theorem drain_some {b r : List β} {f : φ} (h : F.next b = some (f, r)) :
    F.drain b = (f :: (F.drain r).1, (F.drain r).2) := by
  rw [drain]
  split
  · rename_i hn
    rw [h] at hn
    cases hn
  · rename_i f' r' hs
    rw [h] at hs
    obtain ⟨rfl, rfl⟩ := Prod.mk.inj (Option.some.inj hs)
    rfl

/-- Induction along a drain. -/
theorem drain_induction {P : List β → Prop}
    (none : ∀ b, F.next b = none → P b)
    (some : ∀ b f r, F.next b = some (f, r) → P r → P b) (b : List β) : P b := by
  induction hn : b.length using Nat.strongRecOn generalizing b with
  | ind n ih =>
      cases h : F.next b with
      | none => exact none b h
      | some fr =>
          obtain ⟨f, r⟩ := fr
          have hlt := F.shrink h
          exact some b f r h (ih r.length (by omega) r rfl)

theorem next_drain (b : List β) : F.next (F.drain b).2 = none := by
  induction b using F.drain_induction with
  | none b h => rw [drain_none h, h]
  | some b f r h ih => rwa [drain_some h]

/-- **One cut**: draining before more arrives changes nothing in the whole. -/
theorem drain_append (b c : List β) :
    F.drain (b ++ c) =
      ((F.drain b).1 ++ (F.drain ((F.drain b).2 ++ c)).1, (F.drain ((F.drain b).2 ++ c)).2) := by
  induction b using F.drain_induction with
  | none b h => rw [drain_none h, List.nil_append]
  | some b f r h ih =>
      rw [drain_some (F.stable h c), drain_some h, ih]
      rfl

/-- **All cuts**: from a drained buffer, draining after every chunk is draining
the whole once. -/
theorem feed_eq {b : List β} (hb : F.next b = none) (chunks : List (List β)) :
    F.feed b chunks = F.drain (b ++ chunks.flatten) := by
  induction chunks generalizing b with
  | nil => rw [List.flatten_nil, List.append_nil, drain_none hb, feed]
  | cons c cs ih =>
      rw [feed, ih (next_drain _), List.flatten_cons, ← List.append_assoc, drain_append (b ++ c)]

end Framer

end Framing
