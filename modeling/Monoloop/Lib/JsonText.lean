import Mathlib.Data.List.Basic

/-!
# JSON texts

The grammar of JSON over bytes, as one derivability relation over the grammar's
symbols. The number carried by a derivation bounds the nesting of arrays and
objects. String bodies may hold any byte from `0x80` on; that these form UTF-8
is the business of whoever reads the string.

`Derives.nested` is the induction rule for programs that only follow brackets
and strings: a property of byte strings that is closed under concatenation,
holds of every byte that is neither a quote nor a bracket, of string literals,
and passes through a pair of brackets, holds of every JSON text.
-/

namespace JsonText

def isWs (b : UInt8) : Bool := b = 0x20 || b = 0x09 || b = 0x0a || b = 0x0d

def isDigit (b : UInt8) : Bool := 0x30 ≤ b && b ≤ 0x39

def isHex (b : UInt8) : Bool :=
  isDigit b || (0x41 ≤ b && b ≤ 0x46) || (0x61 ≤ b && b ≤ 0x66)

/-- White space between tokens. -/
def Ws (w : List UInt8) : Prop := ∀ b ∈ w, isWs b = true

/-- What stands between the quotes of a string. -/
inductive StringBody : List UInt8 → Prop where
  | nil : StringBody []
  | plain {b s} : 0x20 ≤ b → b ≠ 0x22 → b ≠ 0x5c → StringBody s → StringBody (b :: s)
  | escape {b s} : b ∈ [0x22, 0x5c, 0x2f, 0x62, 0x66, 0x6e, 0x72, 0x74] → StringBody s →
      StringBody (0x5c :: b :: s)
  | unicode {h₁ h₂ h₃ h₄ s} : isHex h₁ = true → isHex h₂ = true → isHex h₃ = true →
      isHex h₄ = true → StringBody s → StringBody (0x5c :: 0x75 :: h₁ :: h₂ :: h₃ :: h₄ :: s)

def Digits (ds : List UInt8) : Prop := ∀ b ∈ ds, isDigit b = true

/-- `-`? int frac? exp? -/
structure Number (sign int frac exp : List UInt8) : Prop where
  sign : sign = [] ∨ sign = [0x2d]
  int : int = [0x30] ∨ ∃ d ds, int = d :: ds ∧ d ≠ 0x30 ∧ Digits (d :: ds)
  frac : frac = [] ∨ ∃ ds, frac = 0x2e :: ds ∧ ds ≠ [] ∧ Digits ds
  exp : exp = [] ∨ ∃ e sg ds, exp = e :: (sg ++ ds) ∧ (e = 0x65 ∨ e = 0x45) ∧
    (sg = [] ∨ sg = [0x2b] ∨ sg = [0x2d]) ∧ ds ≠ [] ∧ Digits ds

inductive Symbol where
  | value
  | element
  | elements
  | member
  | members

/-- `Derives sym d bs`: the bytes are a `sym`, nested at most `d` deep. -/
inductive Derives : Symbol → Nat → List UInt8 → Prop where
  | null {d} : Derives .value d [0x6e, 0x75, 0x6c, 0x6c]
  | true {d} : Derives .value d [0x74, 0x72, 0x75, 0x65]
  | false {d} : Derives .value d [0x66, 0x61, 0x6c, 0x73, 0x65]
  | number {d sign int frac exp} : Number sign int frac exp →
      Derives .value d (sign ++ (int ++ (frac ++ exp)))
  | string {d s} : StringBody s → Derives .value d (0x22 :: (s ++ [0x22]))
  | arrayEmpty {d w} : Ws w → Derives .value (d + 1) (0x5b :: (w ++ [0x5d]))
  | array {d es} : Derives .elements d es → Derives .value (d + 1) (0x5b :: (es ++ [0x5d]))
  | objectEmpty {d w} : Ws w → Derives .value (d + 1) (0x7b :: (w ++ [0x7d]))
  | object {d ms} : Derives .members d ms → Derives .value (d + 1) (0x7b :: (ms ++ [0x7d]))
  | element {d w v w'} : Ws w → Derives .value d v → Ws w' → Derives .element d (w ++ (v ++ w'))
  | elementsOne {d e} : Derives .element d e → Derives .elements d e
  | elementsMore {d e es} : Derives .element d e → Derives .elements d es →
      Derives .elements d (e ++ 0x2c :: es)
  | member {d w k w' e} : Ws w → StringBody k → Ws w' → Derives .element d e →
      Derives .member d (w ++ (0x22 :: (k ++ [0x22]) ++ (w' ++ 0x3a :: e)))
  | membersOne {d m} : Derives .member d m → Derives .members d m
  | membersMore {d m ms} : Derives .member d m → Derives .members d ms →
      Derives .members d (m ++ 0x2c :: ms)

/-- The bytes are an array or an object. -/
def Container (d : Nat) (bs : List UInt8) : Prop :=
  Derives .value d bs ∧ (bs.head? = some 0x5b ∨ bs.head? = some 0x7b)

/-- A byte that is neither a quote nor a bracket. -/
def Quiet (b : UInt8) : Prop := b ≠ 0x22 ∧ b ≠ 0x5b ∧ b ≠ 0x5d ∧ b ≠ 0x7b ∧ b ≠ 0x7d

/-- Properties that follow the nesting of a text. -/
structure Nested (P : Nat → List UInt8 → Prop) : Prop where
  nil : ∀ d, P d []
  append : ∀ {d a b}, P d a → P d b → P d (a ++ b)
  quiet : ∀ {d b}, Quiet b → P d [b]
  string : ∀ {d s}, StringBody s → P d (0x22 :: (s ++ [0x22]))
  array : ∀ {d bs}, P d bs → P (d + 1) (0x5b :: (bs ++ [0x5d]))
  object : ∀ {d bs}, P d bs → P (d + 1) (0x7b :: (bs ++ [0x7d]))

namespace Nested

variable {P : Nat → List UInt8 → Prop} (hP : Nested P)

include hP

theorem cons {d : Nat} {b : UInt8} {bs : List UInt8} (hb : Quiet b) (h : P d bs) :
    P d (b :: bs) := hP.append (hP.quiet hb) h

theorem allQuiet {d : Nat} {bs : List UInt8} (h : ∀ b ∈ bs, Quiet b) : P d bs := by
  induction bs with
  | nil => exact hP.nil d
  | cons b bs ih =>
      exact hP.cons (h b List.mem_cons_self) (ih (fun x hx => h x (List.mem_cons_of_mem _ hx)))

end Nested

theorem quiet_of_isWs {b : UInt8} (h : isWs b = true) : Quiet b := by
  simp only [isWs, Bool.or_eq_true, decide_eq_true_eq] at h
  rcases h with ((rfl | rfl) | rfl) | rfl <;> (unfold Quiet; decide +kernel)

theorem quiet_of_isDigit {b : UInt8} (h : isDigit b = true) : Quiet b := by
  simp only [isDigit, Bool.and_eq_true, decide_eq_true_eq] at h
  refine ⟨?_, ?_, ?_, ?_, ?_⟩ <;> (rintro rfl; exact absurd h (by decide))

theorem Ws.quiet {w : List UInt8} (h : Ws w) : ∀ b ∈ w, Quiet b :=
  fun b hb => quiet_of_isWs (h b hb)

theorem Digits.quiet {ds : List UInt8} (h : Digits ds) : ∀ b ∈ ds, Quiet b :=
  fun b hb => quiet_of_isDigit (h b hb)

/-- No part of a number is a quote or a bracket. -/
theorem Number.quiet {sign int frac exp : List UInt8} (h : Number sign int frac exp) :
    ∀ b ∈ sign ++ (int ++ (frac ++ exp)), Quiet b := by
  have hsign : ∀ b ∈ sign, Quiet b := by
    rcases h.sign with rfl | rfl <;> (unfold Quiet; decide +kernel)
  have hint : ∀ b ∈ int, Quiet b := by
    rcases h.int with rfl | ⟨x, ds, rfl, -, hds⟩
    · unfold Quiet; decide +kernel
    · exact hds.quiet
  have hfrac : ∀ b ∈ frac, Quiet b := by
    rcases h.frac with rfl | ⟨ds, rfl, -, hds⟩
    · unfold Quiet; decide +kernel
    · exact List.forall_mem_cons.mpr ⟨by unfold Quiet; decide +kernel, hds.quiet⟩
  have hexp : ∀ b ∈ exp, Quiet b := by
    rcases h.exp with rfl | ⟨e, sg, ds, rfl, he, hsg, -, hds⟩
    · unfold Quiet; decide +kernel
    · have he' : Quiet e := by rcases he with rfl | rfl <;> (unfold Quiet; decide +kernel)
      have hsg' : ∀ b ∈ sg, Quiet b := by
        rcases hsg with rfl | rfl | rfl <;> (unfold Quiet; decide +kernel)
      exact List.forall_mem_cons.mpr ⟨he', List.forall_mem_append.mpr ⟨hsg', hds.quiet⟩⟩
  exact List.forall_mem_append.mpr
    ⟨hsign, List.forall_mem_append.mpr ⟨hint, List.forall_mem_append.mpr ⟨hfrac, hexp⟩⟩⟩

/-- **The induction rule for what follows brackets and strings only.** -/
theorem Derives.nested {P : Nat → List UInt8 → Prop} (hP : Nested P) {sym : Symbol} {d : Nat}
    {bs : List UInt8} (h : Derives sym d bs) : P d bs := by
  induction h with
  | null => exact hP.allQuiet (by unfold Quiet; decide +kernel)
  | true => exact hP.allQuiet (by unfold Quiet; decide +kernel)
  | false => exact hP.allQuiet (by unfold Quiet; decide +kernel)
  | number hn => exact hP.allQuiet hn.quiet
  | string hs => exact hP.string hs
  | arrayEmpty hw => exact hP.array (hP.allQuiet hw.quiet)
  | array _ ih => exact hP.array ih
  | objectEmpty hw => exact hP.object (hP.allQuiet hw.quiet)
  | object _ ih => exact hP.object ih
  | element hw _ hw' ih => exact hP.append (hP.allQuiet hw.quiet) (hP.append ih (hP.allQuiet hw'.quiet))
  | elementsOne _ ih => exact ih
  | elementsMore _ _ ih ih' => exact hP.append ih (hP.cons (by unfold Quiet; decide +kernel) ih')
  | member hw hk hw' _ ih =>
      refine hP.append (hP.allQuiet hw.quiet) (hP.append (hP.string hk) ?_)
      exact hP.append (hP.allQuiet hw'.quiet) (hP.cons (by unfold Quiet; decide +kernel) ih)
  | membersOne _ ih => exact ih
  | membersMore _ _ ih ih' => exact hP.append ih (hP.cons (by unfold Quiet; decide +kernel) ih')

/-- A container is a pair of brackets around something that nests one less. -/
theorem Container.body {d : Nat} {bs : List UInt8} (h : Container d bs) :
    ∃ n o body c, d = n + 1 ∧ bs = o :: (body ++ [c]) ∧
      ((o = 0x5b ∧ c = 0x5d) ∨ (o = 0x7b ∧ c = 0x7d)) ∧
      ∀ P : Nat → List UInt8 → Prop, Nested P → P n body := by
  obtain ⟨hd, hhead⟩ := h
  cases hd with
  | null => simp at hhead
  | true => simp at hhead
  | false => simp at hhead
  | @number _ sign int frac exp hn =>
      -- a number starts with a sign or a digit
      rcases hhead with hh | hh
      · exact absurd rfl (hn.quiet _ (List.mem_of_head? hh)).2.1
      · exact absurd rfl (hn.quiet _ (List.mem_of_head? hh)).2.2.2.1
  | string hs => simp at hhead
  | arrayEmpty hw =>
      exact ⟨_, _, _, _, rfl, rfl, .inl ⟨rfl, rfl⟩, fun P hP => hP.allQuiet hw.quiet⟩
  | array he => exact ⟨_, _, _, _, rfl, rfl, .inl ⟨rfl, rfl⟩, fun P hP => he.nested hP⟩
  | objectEmpty hw =>
      exact ⟨_, _, _, _, rfl, rfl, .inr ⟨rfl, rfl⟩, fun P hP => hP.allQuiet hw.quiet⟩
  | object hm => exact ⟨_, _, _, _, rfl, rfl, .inr ⟨rfl, rfl⟩, fun P hP => hm.nested hP⟩

end JsonText
