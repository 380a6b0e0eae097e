import Monoloop.Lib.Utf8
import Monoloop.Lib.JsonText
import Monoloop.Lib.Framing

/-!
# Framing concatenated JSON values

The ACP family delivers JSON values back to back in a byte stream. A value that
starts with a bracket ends where its brackets close, outside of strings;
anything else ends with its line. Values are read by `parse`, which stands for
the JSON reader and is a parameter.

The first part is the source's loop. The second shows it to be a framer in the
sense of `Framing`, so that chunks do not matter, and that on a container of the
JSON grammar the scan stops at the closing bracket and not before.
-/

namespace Monoloop.Interpreter

open Utf8

/-! ## The source -/

structure JsonScan where
  depth : Int32 := 0
  inString : Bool := false
  escape : Bool := false
  deriving DecidableEq, Repr

/-- The scan for the end of a bracketed value, from index `i`. -/
def findBracketEnd (s : JsonScan) (i : Nat) : List UInt8 → Option Nat
  | [] => none
  | b :: rest =>
      if s.inString then
        if s.escape then findBracketEnd { s with escape := false } (i + 1) rest
        else if b = 0x5c then findBracketEnd { s with escape := true } (i + 1) rest
        else if b = 0x22 then findBracketEnd { s with inString := false } (i + 1) rest
        else findBracketEnd s (i + 1) rest
      else if b = 0x22 then findBracketEnd { s with inString := true } (i + 1) rest
      else if b = 0x7b || b = 0x5b then findBracketEnd { s with depth := s.depth + 1 } (i + 1) rest
      else if b = 0x7d || b = 0x5d then
        if s.depth - 1 = 0 then some (i + 1)
        else findBracketEnd { s with depth := s.depth - 1 } (i + 1) rest
      else findBracketEnd s (i + 1) rest

def findCompleteJsonEnd (buf : List UInt8) : Option Nat :=
  match buf with
  | [] => none
  | first :: _ =>
      -- not a JSON value start: try line-based
      if first ≠ 0x7b ∧ first ≠ 0x5b then (buf.findIdx? (· = 0x0a)).map (· + 1)
      else findBracketEnd {} 0 buf

def skipWhitespace (buf : List UInt8) : List UInt8 := buf.dropWhile isAsciiWhitespace

section Drain

variable {Value : Type} (parse : List UInt8 → Except String Value)

/-- The loop of the drain. Each turn takes a value off the buffer, so as much
fuel as the buffer has bytes is enough (`drainJsonLoop_values`). -/
def drainJsonLoop : Nat → List UInt8 → Except String (List Value) × List UInt8
  | 0, buf => (.ok [], buf)
  | fuel + 1, buf =>
      let buf := skipWhitespace buf
      match findCompleteJsonEnd buf with
      | none => (.ok [], buf)
      | some e =>
          match parse (buf.take e) with
          | .error err => (.error ("json parse: " ++ err), buf)
          | .ok value =>
              let (rest, left) := drainJsonLoop fuel (buf.drop e)
              (rest.map (value :: ·), left)

/-- Extract complete JSON values from a growing byte buffer. -/
def drainJsonValues (buf : List UInt8) : Except String (List Value) × List UInt8 :=
  drainJsonLoop parse (buf.length + 1) buf

/-- The drain after every chunk, up to the first error. -/
def drainChunks (buf : List UInt8) : List (List UInt8) → Except String (List Value) × List UInt8
  | [] => (.ok [], buf)
  | chunk :: chunks =>
      match drainJsonValues parse (buf ++ chunk) with
      | (.error err, left) => (.error err, left)
      | (.ok values, left) =>
          let (rest, left) := drainChunks left chunks
          (rest.map (values ++ ·), left)

end Drain

/-! ## The scan as a framer -/

theorem findBracketEnd_le {s : JsonScan} {i e : Nat} {bs : List UInt8}
    (h : findBracketEnd s i bs = some e) : i < e ∧ e ≤ i + bs.length := by
  induction bs generalizing s i with
  | nil => cases h
  | cons b rest ih =>
      simp only [findBracketEnd] at h
      have hstep : ∀ s', findBracketEnd s' (i + 1) rest = some e →
          i < e ∧ e ≤ i + (b :: rest).length := by
        intro s' hs'
        have := ih hs'
        simp only [List.length_cons]
        omega
      split_ifs at h with h1 h2 h3 h4 h5 h6 h7 h8
      · exact hstep _ h
      · exact hstep _ h
      · exact hstep _ h
      · exact hstep _ h
      · exact hstep _ h
      · exact hstep _ h
      · obtain rfl := Option.some.inj h
        simp only [List.length_cons]
        omega
      · exact hstep _ h
      · exact hstep _ h

theorem findBracketEnd_append {s : JsonScan} {i e : Nat} {bs : List UInt8}
    (h : findBracketEnd s i bs = some e) (c : List UInt8) :
    findBracketEnd s i (bs ++ c) = some e := by
  induction bs generalizing s i with
  | nil => cases h
  | cons b rest ih =>
      simp only [List.cons_append, findBracketEnd] at h ⊢
      split_ifs at h ⊢
      all_goals first | exact ih h | exact h

theorem findCompleteJsonEnd_le {buf : List UInt8} {e : Nat}
    (h : findCompleteJsonEnd buf = some e) : 0 < e ∧ e ≤ buf.length := by
  cases buf with
  | nil => cases h
  | cons first rest =>
      simp only [findCompleteJsonEnd] at h
      split at h
      · obtain ⟨i, hi, rfl⟩ := Option.map_eq_some_iff.mp h
        have := (List.findIdx?_eq_some_iff_getElem.mp hi).1
        omega
      · have := findBracketEnd_le h
        omega

theorem findCompleteJsonEnd_append {buf : List UInt8} {e : Nat}
    (h : findCompleteJsonEnd buf = some e) (c : List UInt8) :
    findCompleteJsonEnd (buf ++ c) = some e := by
  cases buf with
  | nil => cases h
  | cons first rest =>
      simp only [List.cons_append, findCompleteJsonEnd] at h ⊢
      split_ifs at h ⊢
      · obtain ⟨i, hi, rfl⟩ := Option.map_eq_some_iff.mp h
        rw [← List.cons_append, List.findIdx?_append, hi]
        rfl
      · exact findBracketEnd_append h c

/-- The next value's bytes and what follows them. -/
def nextJson (buf : List UInt8) : Option (List UInt8 × List UInt8) :=
  let buf := skipWhitespace buf
  (findCompleteJsonEnd buf).map (fun e => (buf.take e, buf.drop e))

theorem length_skipWhitespace (buf : List UInt8) :
    (skipWhitespace buf).length ≤ buf.length :=
  (List.dropWhile_sublist _).length_le

theorem skipWhitespace_append {buf : List UInt8} (h : skipWhitespace buf ≠ []) (c : List UInt8) :
    skipWhitespace (buf ++ c) = skipWhitespace buf ++ c := by
  unfold skipWhitespace at h ⊢
  rw [List.dropWhile_append, if_neg (by simpa using h)]

/-- What was skipped before may be skipped with what comes later. -/
theorem skipWhitespace_skip_append (buf c : List UInt8) :
    skipWhitespace (skipWhitespace buf ++ c) = skipWhitespace (buf ++ c) := by
  by_cases h : skipWhitespace buf = []
  · unfold skipWhitespace at h ⊢
    rw [h, List.nil_append, List.dropWhile_append, if_pos (by rw [h]; rfl)]
  · rw [skipWhitespace_append h]
    have hidem : skipWhitespace (skipWhitespace buf) = skipWhitespace buf :=
      List.dropWhile_idempotent (p := isAsciiWhitespace) buf
    rw [skipWhitespace_append (by rwa [hidem]), hidem]

/-- **The scan is a framer.** -/
def jsonFramer : Framing.Framer UInt8 (List UInt8) where
  next := nextJson
  shrink := by
    intro b f r h
    obtain ⟨e, he, hfr⟩ := Option.map_eq_some_iff.mp h
    obtain ⟨-, rfl⟩ := Prod.mk.inj hfr
    have hle := findCompleteJsonEnd_le he
    have hskip := length_skipWhitespace b
    rw [List.length_drop]
    omega
  stable := by
    intro b f r h c
    obtain ⟨e, he, hfr⟩ := Option.map_eq_some_iff.mp h
    obtain ⟨rfl, rfl⟩ := Prod.mk.inj hfr
    have hle := findCompleteJsonEnd_le he
    have hne : skipWhitespace b ≠ [] := by
      intro hnil
      rw [hnil] at he
      cases he
    rw [nextJson, skipWhitespace_append hne, findCompleteJsonEnd_append he, Option.map_some,
      List.take_append_of_le_length hle.2, List.drop_append_of_le_length hle.2]

/-! ## The drain follows the frames -/

section Drain

variable {Value : Type} (parse : List UInt8 → Except String Value)

/-- The values of a list of frames, up to the first that is not read. -/
def readFrames : List (List UInt8) → Except String (List Value)
  | [] => .ok []
  | f :: fs =>
      match parse f with
      | .error err => .error ("json parse: " ++ err)
      | .ok value => (readFrames fs).map (value :: ·)

theorem nextJson_none {buf : List UInt8} (h : nextJson buf = none) :
    findCompleteJsonEnd (skipWhitespace buf) = none := Option.map_eq_none_iff.mp h

/-- The loop's values are those of the buffer's frames, whatever the fuel, as
long as there is some for every byte. -/
theorem drainJsonLoop_values {fuel : Nat} {buf : List UInt8} (hfuel : buf.length < fuel) :
    (drainJsonLoop parse fuel buf).1 = readFrames parse (jsonFramer.drain buf).1 := by
  induction fuel generalizing buf with
  | zero => omega
  | succ fuel ih =>
      cases hn : nextJson buf with
      | none =>
          rw [Framing.Framer.drain_none hn]
          simp only [drainJsonLoop, nextJson_none hn, readFrames]
      | some fr =>
          obtain ⟨f, r⟩ := fr
          rw [Framing.Framer.drain_some hn]
          have hlt := jsonFramer.shrink hn
          obtain ⟨e, he, hfr⟩ := Option.map_eq_some_iff.mp hn
          obtain ⟨rfl, rfl⟩ := Prod.mk.inj hfr
          simp only [drainJsonLoop, he, readFrames]
          cases parse ((skipWhitespace buf).take e) with
          | error err => rfl
          | ok value => rw [← ih (by omega)]

/-- What the loop leaves when every frame is read: the drained buffer, its
leading white space skipped. -/
theorem drainJsonLoop_left {fuel : Nat} {buf : List UInt8} (hfuel : buf.length < fuel)
    {values : List Value} (h : readFrames parse (jsonFramer.drain buf).1 = .ok values) :
    (drainJsonLoop parse fuel buf).2 = skipWhitespace (jsonFramer.drain buf).2 := by
  induction fuel generalizing buf values with
  | zero => omega
  | succ fuel ih =>
      cases hn : nextJson buf with
      | none =>
          rw [Framing.Framer.drain_none hn]
          simp only [drainJsonLoop, nextJson_none hn]
      | some fr =>
          obtain ⟨f, r⟩ := fr
          rw [Framing.Framer.drain_some hn] at h ⊢
          have hlt := jsonFramer.shrink hn
          obtain ⟨e, he, hfr⟩ := Option.map_eq_some_iff.mp hn
          obtain ⟨rfl, rfl⟩ := Prod.mk.inj hfr
          simp only [readFrames] at h
          simp only [drainJsonLoop, he]
          cases hp : parse ((skipWhitespace buf).take e) with
          | error err =>
              rw [hp] at h
              cases h
          | ok value =>
              rw [hp] at h
              cases hrest : readFrames parse (jsonFramer.drain ((skipWhitespace buf).drop e)).1 with
              | error err =>
                  rw [hrest] at h
                  cases h
              | ok rest => exact ih (by omega) hrest

theorem readFrames_append {fs gs : List (List UInt8)} {values values' : List Value}
    (h : readFrames parse fs = .ok values) (h' : readFrames parse gs = .ok values') :
    readFrames parse (fs ++ gs) = .ok (values ++ values') := by
  induction fs generalizing values with
  | nil =>
      cases h
      exact h'
  | cons f fs ih =>
      simp only [readFrames, List.cons_append] at h ⊢
      cases hp : parse f with
      | error err =>
          rw [hp] at h
          cases h
      | ok value =>
          rw [hp] at h
          cases hrest : readFrames parse fs with
          | error err =>
              rw [hrest] at h
              cases h
          | ok rest =>
              rw [hrest] at h
              cases h
              rw [ih hrest]
              rfl

theorem readFrames_of_append {fs gs : List (List UInt8)} {values : List Value}
    (h : readFrames parse (fs ++ gs) = .ok values) :
    ∃ v v', readFrames parse fs = .ok v ∧ readFrames parse gs = .ok v' ∧ values = v ++ v' := by
  induction fs generalizing values with
  | nil => exact ⟨[], values, rfl, h, rfl⟩
  | cons f fs ih =>
      simp only [readFrames, List.cons_append] at h ⊢
      cases hp : parse f with
      | error err =>
          rw [hp] at h
          cases h
      | ok value =>
          rw [hp] at h
          cases hrest : readFrames parse (fs ++ gs) with
          | error err =>
              rw [hrest] at h
              cases h
          | ok rest =>
              rw [hrest] at h
              cases h
              obtain ⟨v, v', hv, hv', rfl⟩ := ih hrest
              exact ⟨value :: v, v', by rw [hv]; rfl, hv', rfl⟩

/-- Only what is left after the leading white space counts. -/
theorem drain_congr {a b : List UInt8} (h : skipWhitespace a = skipWhitespace b) :
    (jsonFramer.drain a).1 = (jsonFramer.drain b).1 ∧
      skipWhitespace (jsonFramer.drain a).2 = skipWhitespace (jsonFramer.drain b).2 := by
  have hnext : jsonFramer.next a = jsonFramer.next b := by
    show nextJson a = nextJson b
    rw [nextJson, nextJson, h]
  cases hn : jsonFramer.next a with
  | none =>
      rw [Framing.Framer.drain_none hn, Framing.Framer.drain_none (hnext.symm.trans hn)]
      exact ⟨rfl, h⟩
  | some fr =>
      obtain ⟨f, r⟩ := fr
      rw [Framing.Framer.drain_some hn, Framing.Framer.drain_some (hnext.symm.trans hn)]
      exact ⟨rfl, rfl⟩

/-- Draining after every chunk, when every frame is read. -/
theorem drainChunks_eq {chunks : List (List UInt8)} {r : List UInt8} {values : List Value}
    (h : readFrames parse (jsonFramer.feed r chunks).1 = .ok values) :
    drainChunks parse (skipWhitespace r) chunks =
      (.ok values, skipWhitespace (jsonFramer.feed r chunks).2) := by
  induction chunks generalizing r values with
  | nil =>
      cases h
      rfl
  | cons chunk chunks ih =>
      obtain ⟨v, v', hv, hv', rfl⟩ := readFrames_of_append parse h
      obtain ⟨hframes, hleft⟩ := drain_congr (skipWhitespace_skip_append r chunk)
      rw [← hframes] at hv
      have hvals : drainJsonValues parse (skipWhitespace r ++ chunk) =
          (.ok v, skipWhitespace (jsonFramer.drain (r ++ chunk)).2) := by
        apply Prod.ext
        · rw [drainJsonValues, drainJsonLoop_values parse (Nat.lt_succ_self _), hv]
        · rw [drainJsonValues, drainJsonLoop_left parse (Nat.lt_succ_self _) hv, hleft]
      simp only [drainChunks, hvals, ih hv', Framing.Framer.feed]
      rfl

end Drain

/-! ## The scan on JSON texts -/

/-- The scan runs through the bytes at bracket depth `k` and comes out as it
went in. -/
def Passes (k : Nat) (bs : List UInt8) : Prop :=
  ∀ i rest, findBracketEnd { depth := Int32.ofNat k } i (bs ++ rest) =
    findBracketEnd { depth := Int32.ofNat k } (i + bs.length) rest

theorem depth_ne_zero {k : Nat} (h : 0 < k) (hk : k < 4294967296) : Int32.ofNat k ≠ 0 := by
  intro h0
  have hv := congrArg Int32.toBitVec h0
  rw [Int32.toBitVec_ofNat'] at hv
  replace hv := congrArg BitVec.toNat hv
  simp at hv
  omega

theorem depth_succ (k : Nat) : Int32.ofNat k + 1 = Int32.ofNat (k + 1) := by
  rw [Int32.ofNat_add]
  rfl

theorem depth_pred (k : Nat) : Int32.ofNat (k + 1) - 1 = Int32.ofNat k := by
  rw [Int32.ofNat_add]
  exact Int32.add_sub_cancel _ _

theorem findBracketEnd_plain {b : UInt8} (hquote : b ≠ 0x22) (hslash : b ≠ 0x5c) (depth : Int32)
    (i : Nat) (rest : List UInt8) :
    findBracketEnd { depth, inString := true } i (b :: rest) =
      findBracketEnd { depth, inString := true } (i + 1) rest := by
  rw [findBracketEnd]
  simp only [if_true, Bool.false_eq_true, if_false, if_neg hslash, if_neg hquote]

/-- The byte after a backslash is skipped, a quote included. -/
theorem findBracketEnd_escape (b : UInt8) (depth : Int32) (i : Nat) (rest : List UInt8) :
    findBracketEnd { depth, inString := true } i (0x5c :: b :: rest) =
      findBracketEnd { depth, inString := true } (i + 1 + 1) rest := by
  rw [findBracketEnd]
  simp only [if_true, Bool.false_eq_true, if_false]
  rw [findBracketEnd]
  simp only [if_true]

/-- The scan leaves a string at its closing quote. -/
theorem findBracketEnd_string {s : List UInt8} (hs : JsonText.StringBody s) (depth : Int32)
    (i : Nat) (rest : List UInt8) :
    findBracketEnd { depth, inString := true } i (s ++ 0x22 :: rest) =
      findBracketEnd { depth } (i + s.length + 1) rest := by
  have hhex : ∀ h : UInt8, JsonText.isHex h = true → h ≠ 0x22 ∧ h ≠ 0x5c := by
    intro h hh
    constructor <;> (rintro rfl; exact absurd hh (by decide))
  induction hs generalizing i with
  | nil =>
      rw [List.nil_append, findBracketEnd]
      rfl
  | plain _ hquote hslash _ ih =>
      rw [List.cons_append, findBracketEnd_plain hquote hslash, ih, List.length_cons]
      congr 1
      omega
  | escape _ _ ih =>
      rw [List.cons_append, List.cons_append, findBracketEnd_escape, ih, List.length_cons,
        List.length_cons]
      congr 1
      omega
  | unicode hx₁ hx₂ hx₃ hx₄ _ ih =>
      simp only [List.cons_append]
      rw [findBracketEnd_escape, findBracketEnd_plain (hhex _ hx₁).1 (hhex _ hx₁).2,
        findBracketEnd_plain (hhex _ hx₂).1 (hhex _ hx₂).2,
        findBracketEnd_plain (hhex _ hx₃).1 (hhex _ hx₃).2,
        findBracketEnd_plain (hhex _ hx₄).1 (hhex _ hx₄).2, ih]
      simp only [List.length_cons]
      congr 1
      omega

/-- A pair of brackets: one level deeper between them. -/
theorem passes_brackets {k : Nat} {o c : UInt8} {bs : List UInt8}
    (hoc : (o = 0x5b ∧ c = 0x5d) ∨ (o = 0x7b ∧ c = 0x7d)) (hk : 0 < k) (hlt : k < 4294967296)
    (h : Passes (k + 1) bs) : Passes k (o :: (bs ++ [c])) := by
  intro i rest
  rw [List.cons_append, List.append_assoc, List.singleton_append]
  have hopen : findBracketEnd { depth := Int32.ofNat k } i (o :: (bs ++ c :: rest)) =
      findBracketEnd { depth := Int32.ofNat (k + 1) } (i + 1) (bs ++ c :: rest) := by
    rw [findBracketEnd, ← depth_succ]
    rcases hoc with ⟨rfl, -⟩ | ⟨rfl, -⟩ <;> rfl
  have hclose : findBracketEnd { depth := Int32.ofNat (k + 1) } (i + 1 + bs.length) (c :: rest) =
      findBracketEnd { depth := Int32.ofNat k } (i + 1 + bs.length + 1) rest := by
    have hne := depth_ne_zero hk hlt
    rw [findBracketEnd, depth_pred, if_neg hne]
    rcases hoc with ⟨-, rfl⟩ | ⟨-, rfl⟩ <;> rfl
  rw [hopen, h, hclose]
  simp only [List.length_cons, List.length_append, List.length_nil]
  congr 1
  omega

/-- Below the counter's range the scan passes through whatever follows the
nesting of brackets. -/
theorem nested_passes :
    JsonText.Nested (fun d bs => ∀ k, 0 < k → k + d < 4294967296 → Passes k bs) where
  nil := by
    intro d k _ _ i rest
    rfl
  append := by
    intro d a b ha hb k hk hd i rest
    rw [List.append_assoc, ha k hk hd, hb k hk hd, List.length_append, Nat.add_assoc]
  quiet := by
    intro d b hb k _ _ i rest
    obtain ⟨h1, h2, h3, h4, h5⟩ := hb
    simp [findBracketEnd, h1, h2, h3, h4, h5]
  string := by
    intro d s hs k _ _ i rest
    have hopen : findBracketEnd { depth := Int32.ofNat k } i (0x22 :: (s ++ 0x22 :: rest)) =
        findBracketEnd { depth := Int32.ofNat k, inString := true } (i + 1) (s ++ 0x22 :: rest) := by
      rw [findBracketEnd]
      rfl
    rw [List.cons_append, List.append_assoc, List.singleton_append, hopen,
      findBracketEnd_string hs]
    simp only [List.length_cons, List.length_append, List.length_nil]
    congr 1
    omega
  array := by
    intro d bs h k hk hd
    exact passes_brackets (.inl ⟨rfl, rfl⟩) hk (by omega) (h (k + 1) (by omega) (by omega))
  object := by
    intro d bs h k hk hd
    exact passes_brackets (.inr ⟨rfl, rfl⟩) hk (by omega) (h (k + 1) (by omega) (by omega))

/-- **The scan stops at the closing bracket of a container**, whatever follows. -/
theorem findCompleteJsonEnd_container {d : Nat} {bs : List UInt8}
    (h : JsonText.Container d bs) (hd : d < 4294967296) (rest : List UInt8) :
    findCompleteJsonEnd (bs ++ rest) = some bs.length := by
  obtain ⟨n, o, body, c, rfl, rfl, hoc, hbody⟩ := h.body
  have hpass : Passes 1 body := hbody _ nested_passes 1 (by omega) (by omega)
  have hstart : findCompleteJsonEnd (o :: (body ++ c :: rest)) =
      findBracketEnd {} 0 (o :: (body ++ c :: rest)) := by
    simp only [findCompleteJsonEnd]
    rcases hoc with ⟨rfl, -⟩ | ⟨rfl, -⟩ <;> rfl
  have hopen : findBracketEnd {} 0 (o :: (body ++ c :: rest)) =
      findBracketEnd { depth := Int32.ofNat 1 } 1 (body ++ c :: rest) := by
    rw [findBracketEnd]
    rcases hoc with ⟨rfl, -⟩ | ⟨rfl, -⟩ <;> rfl
  have hclose : findBracketEnd { depth := Int32.ofNat 1 } (1 + body.length) (c :: rest) =
      some (1 + body.length + 1) := by
    rw [findBracketEnd]
    rcases hoc with ⟨-, rfl⟩ | ⟨-, rfl⟩ <;> rfl
  rw [List.cons_append, List.append_assoc, List.singleton_append, hstart, hopen, hpass, hclose]
  simp only [List.length_cons, List.length_append, List.length_nil]
  congr 1
  omega

/-! ## A list of values in a stream -/

/-- A value, how it is spelled, and the white space after it. -/
structure Spelled (Value : Type) where
  value : Value
  bytes : List UInt8
  after : List UInt8

/-- White space, then each spelling with the white space after it. -/
def spell {Value : Type} (lead : List UInt8) (items : List (Spelled Value)) : List UInt8 :=
  lead ++ items.flatMap (fun it => it.bytes ++ it.after)

/-- The JSON reader's recursion limit: what it reads is nested at most 128 deep. -/
def RecursionLimited {Value : Type} (parse : List UInt8 → Except String Value) : Prop :=
  ∀ d bs value, JsonText.Container d bs → parse bs = .ok value → JsonText.Container 128 bs

theorem skipWhitespace_white {w rest : List UInt8} (hw : ∀ b ∈ w, isAsciiWhitespace b = true) :
    skipWhitespace (w ++ rest) = skipWhitespace rest := List.dropWhile_append_of_pos hw

theorem skipWhitespace_container {d : Nat} {bs : List UInt8} (h : JsonText.Container d bs)
    (rest : List UInt8) : skipWhitespace (bs ++ rest) = bs ++ rest := by
  obtain ⟨n, o, body, c, -, rfl, hoc, -⟩ := h.body
  rcases hoc with ⟨rfl, -⟩ | ⟨rfl, -⟩ <;> exact List.dropWhile_cons_of_neg (by decide)

/-- The frames of such a stream are the spellings. -/
theorem drain_spell {Value : Type} {items : List (Spelled Value)} {lead : List UInt8}
    (hlead : ∀ b ∈ lead, isAsciiWhitespace b = true)
    (hitems : ∀ it ∈ items, JsonText.Container 128 it.bytes ∧
      ∀ b ∈ it.after, isAsciiWhitespace b = true) :
    (jsonFramer.drain (spell lead items)).1 = items.map Spelled.bytes ∧
      skipWhitespace (jsonFramer.drain (spell lead items)).2 = [] := by
  induction items generalizing lead with
  | nil =>
      have hskip : skipWhitespace (spell lead ([] : List (Spelled Value))) = [] :=
        skipWhitespace_white hlead
      have hnone : jsonFramer.next (spell lead ([] : List (Spelled Value))) = none := by
        show nextJson _ = none
        rw [nextJson, hskip]
        rfl
      rw [Framing.Framer.drain_none hnone]
      exact ⟨rfl, hskip⟩
  | cons it items ih =>
      obtain ⟨hbytes, hafter⟩ := hitems it List.mem_cons_self
      have hnext : jsonFramer.next (spell lead (it :: items)) =
          some (it.bytes, spell it.after items) := by
        show nextJson _ = _
        rw [nextJson, spell, skipWhitespace_white hlead, List.flatMap_cons, List.append_assoc,
          skipWhitespace_container hbytes, findCompleteJsonEnd_container hbytes (by decide),
          Option.map_some, List.take_left, List.drop_left, spell]
      obtain ⟨hframes, hleft⟩ := ih hafter (fun x hx => hitems x (List.mem_cons_of_mem _ hx))
      rw [Framing.Framer.drain_some hnext, hframes]
      exact ⟨rfl, hleft⟩

/-- **Chunks do not matter to the framer**: any list of objects and arrays, in
any spelling the reader reads, with any white space around them and cut
anywhere, comes out value by value and leaves nothing behind. -/
theorem drainChunks_spelled {Value : Type} {parse : List UInt8 → Except String Value}
    (hlimit : RecursionLimited parse) {items : List (Spelled Value)} {lead : List UInt8}
    (hlead : ∀ b ∈ lead, isAsciiWhitespace b = true)
    (hitems : ∀ it ∈ items, (∃ d, JsonText.Container d it.bytes) ∧
      (∀ b ∈ it.after, isAsciiWhitespace b = true) ∧ parse it.bytes = .ok it.value)
    {chunks : List (List UInt8)} (hchunks : chunks.flatten = spell lead items) :
    drainChunks parse [] chunks = (.ok (items.map Spelled.value), []) := by
  have hspelled : ∀ it ∈ items, JsonText.Container 128 it.bytes ∧
      ∀ b ∈ it.after, isAsciiWhitespace b = true := by
    intro it hit
    obtain ⟨⟨d, hd⟩, hafter, hparse⟩ := hitems it hit
    exact ⟨hlimit d _ _ hd hparse, hafter⟩
  obtain ⟨hframes, hleft⟩ := drain_spell hlead hspelled
  have hread : readFrames parse (items.map Spelled.bytes) = .ok (items.map Spelled.value) := by
    clear hframes hleft hspelled hchunks
    induction items with
    | nil => rfl
    | cons it items ih =>
        simp only [List.map_cons, readFrames, (hitems it List.mem_cons_self).2.2]
        rw [ih (fun x hx => hitems x (List.mem_cons_of_mem _ hx))]
        rfl
  have hfeed : jsonFramer.feed [] chunks = jsonFramer.drain (spell lead items) := by
    rw [Framing.Framer.feed_eq rfl, hchunks, List.nil_append]
  have h := drainChunks_eq parse (r := []) (by rw [hfeed, hframes, hread])
  rwa [hfeed, hleft] at h

/-- An object with a bracket in a string, as `\x7b"a":"]"\x7d`. -/
def sampleObject : List UInt8 := [0x7b, 0x22, 0x61, 0x22, 0x3a, 0x22, 0x5d, 0x22, 0x7d]

/-- The array `[1]`. -/
def sampleArray : List UInt8 := [0x5b, 0x31, 0x5d]

/-- A reader of the two, which are the values 0 and 1. -/
def sampleParse (bs : List UInt8) : Except String Nat :=
  if bs = sampleObject then .ok 0
  else if bs = sampleArray then .ok 1
  else .error "expected value"

theorem container_sampleObject (d : Nat) : JsonText.Container (d + 1) sampleObject := by
  have hkey : JsonText.StringBody [0x61] := .plain (by decide +kernel) (by decide +kernel) (by decide +kernel) .nil
  have hval : JsonText.StringBody [0x5d] := .plain (by decide +kernel) (by decide +kernel) (by decide +kernel) .nil
  have hws : JsonText.Ws [] := by simp [JsonText.Ws]
  have helem : JsonText.Derives .element d [0x22, 0x5d, 0x22] :=
    .element (w := []) (v := [0x22, 0x5d, 0x22]) hws (.string hval) hws
  exact ⟨.object (.membersOne (.member (w := []) hws hkey hws helem)), .inr rfl⟩

theorem container_sampleArray (d : Nat) : JsonText.Container (d + 1) sampleArray := by
  have hone : JsonText.Number [] [0x31] [] [] :=
    { sign := .inl rfl
      int := .inr ⟨0x31, [], rfl, by decide +kernel, by unfold JsonText.Digits; decide +kernel⟩
      frac := .inl rfl
      exp := .inl rfl }
  have hws : JsonText.Ws [] := by simp [JsonText.Ws]
  have helem : JsonText.Derives .element d [0x31] :=
    .element (w := []) (v := [0x31]) hws (.number hone) hws
  exact ⟨.array (.elementsOne helem), .inl rfl⟩

/-- The object and the array, cut inside the string and after the brackets. -/
theorem drainChunks_sample :
    drainChunks sampleParse [] [[0x0c] ++ sampleObject.take 6, sampleObject.drop 6 ++ [0x0a],
      sampleArray] = (.ok [0, 1], []) := by
  refine @drainChunks_spelled Nat sampleParse ?_
    [⟨0, sampleObject, [0x0a]⟩, ⟨1, sampleArray, []⟩] [0x0c] (by decide +kernel) ?_ _ (by decide +kernel)
  · intro d bs value _ hparse
    unfold sampleParse at hparse
    split at hparse
    · rename_i hbs
      exact hbs ▸ container_sampleObject 127
    · split at hparse
      · rename_i hbs
        exact hbs ▸ container_sampleArray 127
      · cases hparse
  · intro it hit
    simp only [List.mem_cons, List.not_mem_nil, or_false] at hit
    rcases hit with rfl | rfl
    · exact ⟨⟨_, container_sampleObject 0⟩, by decide +kernel, by decide +kernel⟩
    · exact ⟨⟨_, container_sampleArray 0⟩, by decide +kernel, by decide +kernel⟩

end Monoloop.Interpreter
