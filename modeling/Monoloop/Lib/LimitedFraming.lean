import Monoloop.Lib.Framing

/-!
# Framing with a bound on the buffer

A framer whose user refuses a chunk that would make the buffer too long, before
it looks for frames, and hands on what the frames of a chunk say only when all
of them can be read. Both let the chunks be seen.

`Steady` says of a stream that they are not: `Steady.feedLimited_eq` for any
chunks, and `steady_of_bytewise` for the converse, which compares the stream in
one piece with the stream byte by byte.
-/

namespace Framing

namespace Framer

variable {β φ ω ε : Type} (F : Framer β φ) (read : φ → Except ε (List ω)) (limit : Nat)
  (refused : ε)

/-- What some frames say, up to the first that cannot be read. -/
def readAll : List φ → Except ε (List ω)
  | [] => .ok []
  | f :: fs =>
      match read f with
      | .error e => .error e
      | .ok ops => (readAll fs).map (ops ++ ·)

/-- Chunks one after the other: what was handed on, and the buffer or the
error. -/
def feedLimited (b : List β) : List (List β) → List ω × Except ε (List β)
  | [] => ([], .ok b)
  | c :: cs =>
      if limit < b.length + c.length then ([], .error refused)
      else
        match readAll read (F.drain (b ++ c)).1 with
        | .error e => ([], .error e)
        | .ok ops =>
            let r := feedLimited (F.drain (b ++ c)).2 cs
            (ops ++ r.1, r.2)

section Read

variable {read}

theorem readAll_append_ok {fs gs : List φ} {ops : List ω} (h : readAll read fs = .ok ops) :
    readAll read (fs ++ gs) = (readAll read gs).map (ops ++ ·) := by
  induction fs generalizing ops with
  | nil =>
      cases h
      cases hg : readAll read gs with
      | error e => exact hg
      | ok rest => exact hg
  | cons f fs ih =>
      simp only [readAll, List.cons_append] at h ⊢
      cases hf : read f with
      | error e =>
          rw [hf] at h
          cases h
      | ok ops' =>
          rw [hf] at h
          cases hfs : readAll read fs with
          | error e =>
              rw [hfs] at h
              cases h
          | ok rest =>
              rw [hfs] at h
              cases h
              simp only [ih hfs]
              cases readAll read gs with
              | error e => rfl
              | ok rest' => simp only [Except.map, List.append_assoc]

theorem readAll_append_error {fs gs : List φ} {e : ε} (h : readAll read fs = .error e) :
    readAll read (fs ++ gs) = .error e := by
  induction fs with
  | nil => cases h
  | cons f fs ih =>
      simp only [readAll, List.cons_append] at h ⊢
      cases hf : read f with
      | error e' =>
          rw [hf] at h
          exact h
      | ok ops' =>
          rw [hf] at h
          cases hfs : readAll read fs with
          | error e' =>
              rw [hfs] at h
              cases h
              simp only [ih hfs]
              rfl
          | ok rest =>
              rw [hfs] at h
              cases h

/-- What the first frames of a readable list say. -/
theorem readAll_of_append {fs gs : List φ} {ops : List ω} (h : readAll read (fs ++ gs) = .ok ops) :
    ∃ a b, readAll read fs = .ok a ∧ readAll read gs = .ok b ∧ ops = a ++ b := by
  cases hfs : readAll read fs with
  | error e =>
      rw [readAll_append_error hfs] at h
      cases h
  | ok a =>
      rw [readAll_append_ok hfs] at h
      cases hgs : readAll read gs with
      | error e =>
          rw [hgs] at h
          cases h
      | ok b =>
          rw [hgs] at h
          cases h
          exact ⟨a, b, rfl, rfl, rfl⟩

/-- An error comes from one frame, the frames before it having been read. -/
theorem readAll_error {fs : List φ} {e : ε} (h : readAll read fs = .error e) :
    ∃ p f q ops, fs = p ++ f :: q ∧ readAll read p = .ok ops ∧ read f = .error e := by
  induction fs with
  | nil => cases h
  | cons f fs ih =>
      simp only [readAll] at h
      cases hf : read f with
      | error e' =>
          rw [hf] at h
          cases h
          exact ⟨[], f, fs, [], rfl, rfl, hf⟩
      | ok ops =>
          rw [hf] at h
          cases hfs : readAll read fs with
          | ok rest =>
              rw [hfs] at h
              cases h
          | error e' =>
              rw [hfs] at h
              cases h
              obtain ⟨p, f', q, ops', rfl, hp, hf'⟩ := ih hfs
              refine ⟨f :: p, f', q, ops ++ ops', rfl, ?_, hf'⟩
              simp only [readAll, hf, hp]
              rfl

theorem readAll_cons_error {f : φ} {fs : List φ} {e : ε} (h : read f = .error e) :
    readAll read (f :: fs) = .error e := by
  simp only [readAll, h]

end Read

section Feed

variable {F read limit refused}

theorem next_nil : F.next [] = none := by
  cases h : F.next [] with
  | none => rfl
  | some fr => exact absurd (F.shrink h) (Nat.not_lt_zero _)

theorem length_drain (b : List β) : (F.drain b).2.length ≤ b.length := by
  induction b using F.drain_induction with
  | none b h => exact Nat.le_of_eq (congrArg (fun r => r.2.length) (drain_none h))
  | some b f r h ih =>
      have hlt := F.shrink h
      rw [drain_some h]
      exact Nat.le_of_lt (Nat.lt_of_le_of_lt ih hlt)

/-- Chunks that all go through have said what the whole says, and leave what the
whole leaves. -/
theorem feedLimited_ok {b r : List β} (hb : F.next b = none) {cs : List (List β)} {ops : List ω}
    (h : F.feedLimited read limit refused b cs = (ops, .ok r)) :
    readAll read (F.drain (b ++ cs.flatten)).1 = .ok ops ∧ r = (F.drain (b ++ cs.flatten)).2 := by
  induction cs generalizing b ops with
  | nil =>
      cases h
      rw [List.flatten_nil, List.append_nil, drain_none hb]
      exact ⟨rfl, rfl⟩
  | cons c cs ih =>
      simp only [feedLimited] at h
      split at h
      · cases h
      · cases hc : readAll read (F.drain (b ++ c)).1 with
        | error e =>
            rw [hc] at h
            cases h
        | ok ops₁ =>
            rw [hc] at h
            obtain ⟨hops, hr⟩ := Prod.mk.inj h
            obtain ⟨hrest, hleft⟩ := ih (next_drain _) (Prod.ext rfl hr)
            rw [List.flatten_cons, ← List.append_assoc, drain_append, readAll_append_ok hc, hrest,
              ← hops]
            exact ⟨rfl, hleft⟩

/-- **Within the limit** a readable stream goes through, however it is cut. -/
theorem feedLimited_readable {b : List β} (hb : F.next b = none) {cs : List (List β)}
    (hlimit : b.length + cs.flatten.length ≤ limit) {ops : List ω}
    (h : readAll read (F.drain (b ++ cs.flatten)).1 = .ok ops) :
    F.feedLimited read limit refused b cs = (ops, .ok (F.drain (b ++ cs.flatten)).2) := by
  induction cs generalizing b ops with
  | nil =>
      rw [List.flatten_nil, List.append_nil, drain_none hb] at h ⊢
      cases h
      rfl
  | cons c cs ih =>
      rw [List.flatten_cons, List.length_append] at hlimit
      rw [List.flatten_cons, ← List.append_assoc, drain_append] at h ⊢
      obtain ⟨ops₁, ops₂, h₁, h₂, rfl⟩ := readAll_of_append h
      have hlen := F.length_drain (b ++ c)
      rw [List.length_append] at hlen
      simp only [feedLimited]
      rw [if_neg (by omega), h₁]
      simp only [ih (next_drain _) (by omega) h₂]

/-- **Within the limit** an unreadable frame with nothing said before it is the
error, however the stream is cut. -/
theorem feedLimited_unreadable {b : List β} (hb : F.next b = none) {cs : List (List β)}
    (hlimit : b.length + cs.flatten.length ≤ limit) {fs gs : List φ} {f : φ} {e : ε}
    (hframes : (F.drain (b ++ cs.flatten)).1 = fs ++ f :: gs) (hfs : readAll read fs = .ok [])
    (hf : read f = .error e) : F.feedLimited read limit refused b cs = ([], .error e) := by
  induction cs generalizing b fs with
  | nil =>
      rw [List.flatten_nil, List.append_nil, drain_none hb] at hframes
      simp at hframes
  | cons c cs ih =>
      rw [List.flatten_cons, List.length_append] at hlimit
      rw [List.flatten_cons, ← List.append_assoc, drain_append] at hframes
      have hlen := F.length_drain (b ++ c)
      rw [List.length_append] at hlen
      simp only [feedLimited]
      rw [if_neg (by omega)]
      rcases List.append_eq_append_iff.mp hframes with ⟨t, rfl, ht⟩ | ⟨t, hc, ht⟩
      · -- this chunk's frames come before the unreadable one
        obtain ⟨a, a', ha, ha', hnil⟩ := readAll_of_append hfs
        obtain ⟨rfl, rfl⟩ := List.append_eq_nil_iff.mp hnil.symm
        rw [ha]
        simp only [ih (next_drain _) (by omega) ht ha', List.append_nil]
      · cases t with
        | nil =>
            rw [List.append_nil] at hc
            rw [hc, hfs]
            rw [List.nil_append] at ht
            have hrest := @ih _ (next_drain _) (by omega) [] ht.symm rfl
            simp only [hrest, List.append_nil]
        | cons f' t =>
            obtain ⟨rfl, -⟩ := List.cons.inj ht
            rw [hc, readAll_append_ok hfs, readAll_cons_error hf]
            rfl

/-- **A buffer that fills up** before anything was said is the error, however
the stream is cut. -/
theorem feedLimited_full {b : List β} (hb : F.next b = none) {cs : List (List β)} {p q : List β}
    {x : β} (hcs : cs.flatten = p ++ x :: q) (hp : readAll read (F.drain (b ++ p)).1 = .ok [])
    (hlimit : limit ≤ (F.drain (b ++ p)).2.length) :
    F.feedLimited read limit refused b cs = ([], .error refused) := by
  induction cs generalizing b p with
  | nil => simp at hcs
  | cons c cs ih =>
      simp only [feedLimited]
      by_cases hlt : limit < b.length + c.length
      · rw [if_pos hlt]
      · rw [if_neg hlt]
        rw [List.flatten_cons] at hcs
        have hlen := F.length_drain (b ++ p)
        rw [List.length_append] at hlen
        rcases List.append_eq_append_iff.mp hcs with ⟨t, rfl, ht⟩ | ⟨t, rfl, ht⟩
        · -- the buffer fills up after this chunk
          rw [← List.append_assoc, drain_append] at hp hlimit
          obtain ⟨a, a', ha, ha', hnil⟩ := readAll_of_append hp
          obtain ⟨rfl, rfl⟩ := List.append_eq_nil_iff.mp hnil.symm
          rw [ha]
          simp only [ih (next_drain _) ht ha' hlimit, List.append_nil]
        · cases t with
          | nil =>
              rw [List.append_nil, hp]
              have hnext : F.next (F.drain (b ++ p)).2 = none := next_drain _
              rw [List.nil_append] at ht
              have hrest := @ih _ hnext [] ht.symm (by
                rw [List.append_nil, drain_none hnext]
                rfl) (by rwa [List.append_nil, drain_none hnext])
              simp only [hrest, List.append_nil]
          | cons x' t =>
              rw [List.length_append, List.length_cons] at hlt
              omega

/-- When every frame that says anything says `x` first, so does the stream. -/
theorem feedLimited_head {x : ω}
    (h : ∀ f ops, read f = .ok ops → ops = [] ∨ ∃ rest, ops = x :: rest) (b : List β)
    (cs : List (List β)) :
    (F.feedLimited read limit refused b cs).1 = [] ∨
      ∃ rest, (F.feedLimited read limit refused b cs).1 = x :: rest := by
  have hall : ∀ fs ops, readAll read fs = .ok ops → ops = [] ∨ ∃ rest, ops = x :: rest := by
    intro fs
    induction fs with
    | nil =>
        intro ops hops
        cases hops
        exact .inl rfl
    | cons f fs ih =>
        intro ops hops
        obtain ⟨a, b, ha, hb, rfl⟩ := @readAll_of_append _ _ _ read [f] fs ops hops
        simp only [readAll] at ha
        cases hf : read f with
        | error e =>
            rw [hf] at ha
            cases ha
        | ok ops₁ =>
            rw [hf] at ha
            cases ha
            rcases h f ops₁ hf with rfl | ⟨rest, rfl⟩
            · exact ih b hb
            · exact .inr ⟨_, rfl⟩
  induction cs generalizing b with
  | nil => exact .inl rfl
  | cons c cs ih =>
      simp only [feedLimited]
      split
      · exact .inl rfl
      · cases hc : readAll read (F.drain (b ++ c)).1 with
        | error e => exact .inl rfl
        | ok ops =>
            rcases hall _ ops hc with rfl | ⟨rest, rfl⟩
            · exact ih (F.drain (b ++ c)).2
            · exact .inr ⟨_, rfl⟩

/-! ## Byte by byte -/

/-- A frame is found as soon as it is complete. -/
def Prompt (F : Framer β φ) : Prop :=
  ∀ b x f r, F.next b = none → F.next (b ++ [x]) = some (f, r) → r = []

/-- One more symbol completes one frame at most. -/
theorem drain_concat (hprompt : Prompt F) {b : List β} (hb : F.next b = none) (x : β) :
    F.drain (b ++ [x]) = ([], b ++ [x]) ∨ ∃ f, F.drain (b ++ [x]) = ([f], []) := by
  cases h : F.next (b ++ [x]) with
  | none => exact .inl (drain_none h)
  | some fr =>
      obtain ⟨f, r⟩ := fr
      obtain rfl := hprompt b x f r hb h
      exact .inr ⟨f, by rw [drain_some h, drain_none next_nil]⟩

/-- **Byte by byte**, when nothing is handed on: an error is at a symbol before
which nothing was said, and there the buffer is full or a frame is unreadable. -/
theorem bytewise_error (hprompt : Prompt F) {b bs : List β} (hb : F.next b = none) {e : ε}
    (h : F.feedLimited read limit refused b (bs.map ([·])) = ([], .error e)) :
    ∃ p x q, bs = p ++ x :: q ∧ readAll read (F.drain (b ++ p)).1 = .ok [] ∧
      ((e = refused ∧ limit ≤ (F.drain (b ++ p)).2.length) ∨
        ∃ f, (F.drain (b ++ p ++ [x])).1 = (F.drain (b ++ p)).1 ++ [f] ∧ read f = .error e) := by
  induction bs generalizing b with
  | nil => cases h
  | cons x bs ih =>
      have hnil : readAll read (F.drain (b ++ [])).1 = .ok [] := by
        rw [List.append_nil, drain_none hb]
        rfl
      simp only [List.map_cons, feedLimited] at h
      split at h
      · rename_i hfull
        rw [List.length_singleton] at hfull
        cases h
        refine ⟨[], x, bs, rfl, hnil, .inl ⟨rfl, ?_⟩⟩
        rw [List.append_nil, drain_none hb]
        exact Nat.le_of_lt_succ hfull
      · cases hx : readAll read (F.drain (b ++ [x])).1 with
        | error e' =>
            rw [hx] at h
            cases h
            refine ⟨[], x, bs, rfl, hnil, .inr ?_⟩
            rw [List.append_nil, drain_none hb]
            rcases drain_concat hprompt hb x with hd | ⟨f, hd⟩
            · rw [hd] at hx
              cases hx
            · rw [hd] at hx ⊢
              refine ⟨f, rfl, ?_⟩
              obtain ⟨p, f', q, ops, heq, -, hf'⟩ := readAll_error hx
              cases p with
              | nil =>
                  obtain ⟨rfl, -⟩ := List.cons.inj heq
                  exact hf'
              | cons f'' p =>
                  obtain ⟨-, hlast⟩ := List.cons.inj heq
                  simp at hlast
        | ok ops =>
            rw [hx] at h
            obtain ⟨hops, hrest⟩ := Prod.mk.inj h
            obtain ⟨rfl, hmore⟩ := List.append_eq_nil_iff.mp hops
            obtain ⟨p, y, q, rfl, hp, hwhy⟩ := ih (next_drain _) (Prod.ext hmore hrest)
            have hcut : ∀ c, F.drain (b ++ x :: c) =
                ((F.drain (b ++ [x])).1 ++ (F.drain ((F.drain (b ++ [x])).2 ++ c)).1,
                  (F.drain ((F.drain (b ++ [x])).2 ++ c)).2) := by
              intro c
              rw [← drain_append, List.append_assoc, List.singleton_append]
            refine ⟨x :: p, y, q, rfl, ?_, ?_⟩
            · rw [hcut, readAll_append_ok hx, hp]
              rfl
            · rw [hcut]
              rcases hwhy with ⟨he, hfull⟩ | ⟨f, hf, hread⟩
              · exact .inl ⟨he, hfull⟩
              · refine .inr ⟨f, ?_, hread⟩
                rw [List.append_assoc, List.cons_append, hcut, ← List.append_assoc, hf]
                exact (List.append_assoc _ _ _).symm

/-! ## When the chunks cannot be seen -/

variable (F read limit)

/-- Within the limit, a readable stream or one that says nothing before an
unreadable frame. -/
structure Short (stream : List β) : Prop where
  length : stream.length ≤ limit
  reads : (∃ ops, readAll read (F.drain stream).1 = .ok ops) ∨
    ∃ fs f gs e, (F.drain stream).1 = fs ++ f :: gs ∧ readAll read fs = .ok [] ∧ read f = .error e

/-- The buffer is full before anything was said, and there is more. -/
def Full (stream : List β) : Prop :=
  ∃ p x q, stream = p ++ x :: q ∧ readAll read (F.drain p).1 = .ok [] ∧
    limit ≤ (F.drain p).2.length

/-- Nothing shows where the stream is cut. -/
def Steady (stream : List β) : Prop := Short F read limit stream ∨ Full F read limit stream

variable {F read limit}

/-- **A steady stream** goes through alike, however it is cut. -/
theorem Steady.feedLimited_eq {cs ds : List (List β)} (h : Steady F read limit cs.flatten)
    (hds : ds.flatten = cs.flatten) :
    F.feedLimited read limit refused [] cs = F.feedLimited read limit refused [] ds := by
  rcases h with ⟨hlength, ⟨ops, hops⟩ | ⟨fs, f, gs, e, hframes, hfs, hf⟩⟩ | ⟨p, x, q, hcs, hp, hfull⟩
  · have hcut : ∀ es : List (List β), es.flatten = cs.flatten →
        F.feedLimited read limit refused [] es = (ops, .ok (F.drain cs.flatten).2) := by
      intro es hes
      rw [feedLimited_readable F.next_nil (by rw [hes, List.length_nil, Nat.zero_add]; exact hlength)
        (by rw [hes, List.nil_append]; exact hops), hes, List.nil_append]
    rw [hcut cs rfl, hcut ds hds]
  · have hcut : ∀ es : List (List β), es.flatten = cs.flatten →
        F.feedLimited read limit refused [] es = ([], .error e) := by
      intro es hes
      apply feedLimited_unreadable F.next_nil _ (by rw [hes, List.nil_append]; exact hframes) hfs hf
      rw [hes, List.length_nil, Nat.zero_add]
      exact hlength
    rw [hcut cs rfl, hcut ds hds]
  · have hcut : ∀ es : List (List β), es.flatten = cs.flatten →
        F.feedLimited read limit refused [] es = ([], .error refused) := by
      intro es hes
      exact feedLimited_full F.next_nil (hes.trans hcs) hp hfull
    rw [hcut cs rfl, hcut ds hds]

/-- **A stream that byte by byte hands nothing on and fails is steady**, if past
the limit it is not a frame that fails. -/
theorem steady_of_bytewise (hprompt : Prompt F) {stream : List β} {e : ε}
    (hbytes : F.feedLimited read limit refused [] (stream.map ([·])) = ([], .error e))
    (hwhole : limit < stream.length → ∀ f, read f ≠ .error e) : Steady F read limit stream := by
  obtain ⟨p, x, q, rfl, hp, hwhy⟩ := bytewise_error hprompt F.next_nil hbytes
  rw [List.nil_append] at hp hwhy
  rcases hwhy with ⟨-, hfull⟩ | ⟨f, hf, hbad⟩
  · exact .inr ⟨p, x, q, rfl, hp, hfull⟩
  · left
    refine ⟨?_, .inr ?_⟩
    · apply Nat.le_of_not_lt
      intro hlt
      exact hwhole hlt f hbad
    · have hcut := F.drain_append (p ++ [x]) q
      rw [List.append_assoc, List.singleton_append, hf, List.append_assoc] at hcut
      exact ⟨(F.drain p).1, f, _, e, congrArg Prod.fst hcut, hp, hbad⟩

end Feed

end Framer

end Framing
