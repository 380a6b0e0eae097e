import Mathlib.Data.List.DropRight

/-!
# Texts addressed by byte offset

A program that keeps text in UTF-8 and cuts it at byte offsets sees two things
at once: a list of characters, and the list of their bytes. Here a text is its
list of characters, `bytes` is its encoding, and `splitAt` cuts it at a byte
offset. The cut is partial: an offset inside a character has no cut.

`splitAt_eq_some` says what a cut is; `split_of_ascii` says that an offset at
which an ASCII byte stands is never inside a character, which is what a scanner
that stops at ASCII bytes only rests on.
-/

namespace Utf8

/-- The encoding of a text. -/
def bytes (s : List Char) : List UInt8 := s.flatMap String.utf8EncodeChar

@[simp] theorem bytes_nil : bytes [] = [] := rfl

@[simp] theorem bytes_cons (c : Char) (s : List Char) :
    bytes (c :: s) = String.utf8EncodeChar c ++ bytes s := rfl

@[simp] theorem bytes_append (p q : List Char) : bytes (p ++ q) = bytes p ++ bytes q :=
  List.flatMap_append

theorem bytes_eq_nil {s : List Char} : bytes s = [] ↔ s = [] := by
  cases s with
  | nil => simp
  | cons c s => simp [String.utf8EncodeChar_ne_nil]

theorem length_le_length_bytes (s : List Char) : s.length ≤ (bytes s).length := by
  induction s with
  | nil => simp
  | cons c s ih =>
      have := c.utf8Size_pos
      simp only [bytes_cons, List.length_cons, List.length_append, String.length_utf8EncodeChar]
      omega

/-- A string is read back from its bytes. -/
theorem fromUTF8?_bytes (s : String) : String.fromUTF8? ⟨(bytes s.toList).toArray⟩ = some s := by
  have hbytes : (⟨(bytes s.toList).toArray⟩ : ByteArray) = s.toByteArray := by
    rw [← String.utf8Encode_toList, List.utf8Encode]
    exact ByteArray.ext List.data_toByteArray.symm
  rw [hbytes, String.fromUTF8?, dif_pos s.isValidUTF8]
  rfl

theorem bytes_of_fromUTF8? {bs : List UInt8} {s : String}
    (h : String.fromUTF8? ⟨bs.toArray⟩ = some s) : bytes s.toList = bs := by
  unfold String.fromUTF8? at h
  split at h
  · cases h
    have hdata := congrArg ByteArray.data (String.utf8Encode_toList (b := String.fromUTF8 _ ‹_›))
    rw [List.utf8Encode, List.data_toByteArray] at hdata
    exact List.toArray_inj hdata
  · cases h

theorem length_bytes (s : String) : (bytes s.toList).length = s.utf8ByteSize := by
  rw [← String.size_toByteArray, ← String.utf8Encode_toList, List.utf8Encode,
    List.size_toByteArray, bytes]

/-! ## ASCII -/

/-- The character that a single byte, read on its own, stands for. -/
def charOf (b : UInt8) : Char := Char.ofNat b.toNat

/-- An ASCII character is encoded by its code. -/
theorem encode_ascii {c : Char} (h : c.toNat < 128) :
    String.utf8EncodeChar c = [UInt8.ofNat c.toNat] := by
  unfold String.utf8EncodeChar
  exact if_pos (show c.toNat ≤ 127 by omega)

theorem le_of_mem_encode {c : Char} {b : UInt8} (h : 128 ≤ c.toNat)
    (hb : b ∈ String.utf8EncodeChar c) : 128 ≤ b.toNat := by
  have hmax : c.toNat < 1114112 := by
    have hv : c.val.toNat = c.toNat := rfl
    have := c.valid
    simp only [UInt32.isValidChar, Nat.isValidChar] at this
    omega
  -- every byte of a longer sequence carries a marker of at least `0x80`
  simp only [String.utf8EncodeChar, Char.toNat_val] at hb
  split at hb
  · omega
  · split at hb
    · simp only [List.mem_cons, List.not_mem_nil, or_false] at hb
      rcases hb with rfl | rfl <;> simp only [UInt8.toNat_ofNat'] <;> omega
    · split at hb
      · simp only [List.mem_cons, List.not_mem_nil, or_false] at hb
        rcases hb with rfl | rfl | rfl <;> simp only [UInt8.toNat_ofNat'] <;> omega
      · simp only [List.mem_cons, List.not_mem_nil, or_false] at hb
        rcases hb with rfl | rfl | rfl | rfl <;> simp only [UInt8.toNat_ofNat'] <;> omega

/-- **An ASCII byte in an encoding is a character of its own**: it is never a
part of a longer sequence. -/
theorem encode_of_ascii_mem {c : Char} {b : UInt8} (hb : b.toNat < 128)
    (h : b ∈ String.utf8EncodeChar c) : c = charOf b ∧ String.utf8EncodeChar c = [b] := by
  have hc : c.toNat < 128 := by
    rcases Nat.lt_or_ge c.toNat 128 with hc | hc
    · exact hc
    · have := le_of_mem_encode hc h
      omega
  rw [encode_ascii hc] at h ⊢
  obtain rfl := List.mem_singleton.mp h
  refine ⟨?_, rfl⟩
  rw [charOf, UInt8.toNat_ofNat', Nat.mod_eq_of_lt (by omega), Char.ofNat_toNat]

/-- An ASCII byte in an encoding is there for its character. -/
theorem mem_bytes_ascii {s : List Char} {b : UInt8} (hb : b.toNat < 128) (h : b ∈ bytes s) :
    charOf b ∈ s := by
  obtain ⟨c, hc, hmem⟩ := List.mem_flatMap.mp h
  obtain ⟨rfl, -⟩ := encode_of_ascii_mem hb hmem
  exact hc

/-- An ASCII byte that ends an encoding ends the text. -/
theorem getLast?_of_ascii {s : List Char} {b : UInt8} (hb : b.toNat < 128)
    (h : (bytes s).getLast? = some b) : s.getLast? = some (charOf b) := by
  cases s using List.reverseRecOn with
  | nil => cases h
  | append_singleton s c =>
      have hc : (String.utf8EncodeChar c).getLast? = some b := by
        rw [bytes_append, bytes_cons, bytes_nil, List.append_nil,
          List.getLast?_append_of_ne_nil _ (String.utf8EncodeChar_ne_nil)] at h
        exact h
      obtain ⟨rfl, -⟩ := encode_of_ascii_mem hb (List.mem_of_getLast? hc)
      exact List.getLast?_concat

theorem getLast?_bytes {s : List Char} {c : Char} (h : s.getLast? = some c) (hc : c.toNat < 128) :
    (bytes s).getLast? = some (UInt8.ofNat c.toNat) := by
  obtain ⟨front, rfl⟩ := List.getLast?_eq_some_iff.mp h
  rw [bytes_append, bytes_cons, bytes_nil, List.append_nil, encode_ascii hc, List.getLast?_concat]

@[simp] theorem toNat_charOf (b : UInt8) : (charOf b).toNat = b.toNat := by
  have hlt := b.toNat_lt
  have hv : b.toNat.isValidChar := Or.inl (by omega)
  rw [charOf, Char.ofNat, dif_pos hv]
  rfl

/-- The byte of an ASCII character's code. -/
theorem encode_charOf {b : UInt8} (hb : b.toNat < 128) :
    String.utf8EncodeChar (charOf b) = [b] := by
  rw [encode_ascii (by rwa [toNat_charOf]), toNat_charOf, UInt8.ofNat_toNat]

/-! ## Cutting at an offset -/

/-- Cut a text at a byte offset; `none` inside a character and past the end. -/
def splitAt : List Char → Nat → Option (List Char × List Char)
  | [], n => if n = 0 then some ([], []) else none
  | c :: s, n =>
      if n = 0 then some ([], c :: s)
      else if c.utf8Size ≤ n then
        (splitAt s (n - c.utf8Size)).map (fun r => (c :: r.1, r.2))
      else none

/-- The length of a text's prefix is a cut. -/
@[simp] theorem splitAt_append (p q : List Char) :
    splitAt (p ++ q) (bytes p).length = some (p, q) := by
  induction p with
  | nil => cases q <;> simp [splitAt]
  | cons c p ih =>
      have hpos := c.utf8Size_pos
      simp only [bytes_cons, List.length_append, String.length_utf8EncodeChar, List.cons_append,
        splitAt]
      rw [if_neg (by omega), if_pos (by omega),
        show c.utf8Size + (bytes p).length - c.utf8Size = (bytes p).length by omega, ih]
      rfl

/-- **What a cut is**: the two parts in order, the first as long as the offset. -/
theorem splitAt_eq_some {s p q : List Char} {n : Nat} :
    splitAt s n = some (p, q) ↔ s = p ++ q ∧ (bytes p).length = n := by
  constructor
  · intro h
    induction s generalizing n p with
    | nil =>
        simp only [splitAt] at h
        split at h
        · rename_i hn
          obtain ⟨rfl, rfl⟩ := Prod.mk.inj (Option.some.inj h)
          exact ⟨rfl, hn.symm⟩
        · cases h
    | cons c s ih =>
        simp only [splitAt] at h
        split at h
        · rename_i hn
          obtain ⟨rfl, rfl⟩ := Prod.mk.inj (Option.some.inj h)
          exact ⟨rfl, hn.symm⟩
        · split at h
          · rename_i hle
            obtain ⟨⟨p', q'⟩, hr, he⟩ := Option.map_eq_some_iff.mp h
            obtain ⟨rfl, rfl⟩ := Prod.mk.inj he
            obtain ⟨rfl, hlen⟩ := ih hr
            refine ⟨rfl, ?_⟩
            simp only [bytes_cons, List.length_append, String.length_utf8EncodeChar]
            omega
          · cases h
  · rintro ⟨rfl, rfl⟩
    exact splitAt_append p q

/-- Two cuts of one text at the same offset agree. -/
theorem append_inj_bytes {p q p' q' : List Char} (h : p ++ q = p' ++ q')
    (hlen : (bytes p).length = (bytes p').length) : p = p' ∧ q = q' := by
  have h1 := splitAt_append p q
  rw [h, hlen, splitAt_append p' q'] at h1
  obtain ⟨rfl, rfl⟩ := Prod.mk.inj (Option.some.inj h1)
  exact ⟨rfl, rfl⟩

/-- A cut inside the first of two texts does not look at the second. -/
theorem splitAt_append_of_le {p : List Char} (q : List Char) {n : Nat}
    (h : n ≤ (bytes p).length) :
    splitAt (p ++ q) n = (splitAt p n).map (fun r => (r.1, r.2 ++ q)) := by
  induction p generalizing n with
  | nil =>
      obtain rfl : n = 0 := by simpa using h
      cases q <;> rfl
  | cons c p ih =>
      simp only [bytes_cons, List.length_append, String.length_utf8EncodeChar] at h
      simp only [List.cons_append, splitAt]
      by_cases hn : n = 0
      · rw [if_pos hn, if_pos hn]
        rfl
      · rw [if_neg hn, if_neg hn]
        by_cases hc : c.utf8Size ≤ n
        · rw [if_pos hc, if_pos hc, ih (by omega), Option.map_map, Option.map_map]
          rfl
        · rw [if_neg hc, if_neg hc]
          rfl

/-- A cut in the second of two texts keeps the first whole. -/
theorem splitAt_append_add (p q : List Char) (n : Nat) :
    splitAt (p ++ q) ((bytes p).length + n) = (splitAt q n).map (fun r => (p ++ r.1, r.2)) := by
  induction p with
  | nil => simp
  | cons c p ih =>
      have hpos := c.utf8Size_pos
      simp only [bytes_cons, List.length_append, String.length_utf8EncodeChar, List.cons_append,
        splitAt]
      rw [if_neg (by omega), if_pos (by omega),
        show c.utf8Size + (bytes p).length + n - c.utf8Size = (bytes p).length + n by omega, ih,
        Option.map_map]
      rfl

/-- Of two cuts of one text, the earlier one cuts the first part of the later. -/
theorem append_of_le {p q p' q' : List Char} (h : p ++ q = p' ++ q')
    (hlen : (bytes p).length ≤ (bytes p').length) : ∃ m, p' = p ++ m ∧ q = m ++ q' := by
  rcases List.append_eq_append_iff.mp h with ⟨m, hp, hq⟩ | ⟨m, hp, hq⟩
  · exact ⟨m, hp, hq⟩
  · -- the other order: what lies between has no bytes
    subst hp
    have hm : bytes m = [] := by
      apply List.length_eq_zero_iff.mp
      simp only [bytes_append, List.length_append] at hlen
      omega
    obtain rfl := bytes_eq_nil.mp hm
    exact ⟨[], by simp, by simpa using hq.symm⟩

/-- **An offset at which an ASCII byte stands is a cut**, and the byte is the
character after it. -/
theorem split_of_ascii {s : List Char} {i : Nat} {b : UInt8} (hi : (bytes s)[i]? = some b)
    (hb : b.toNat < 128) : ∃ p q, s = p ++ charOf b :: q ∧ (bytes p).length = i := by
  induction s generalizing i with
  | nil => simp at hi
  | cons c s ih =>
      rcases Nat.lt_or_ge i (String.utf8EncodeChar c).length with hlt | hge
      · -- the byte lies in `c`, so it is all of `c`
        rw [bytes_cons, List.getElem?_append_left hlt] at hi
        obtain ⟨rfl, hone⟩ := encode_of_ascii_mem hb (List.mem_of_getElem? hi)
        rw [hone, List.length_singleton] at hlt
        obtain rfl : i = 0 := by omega
        exact ⟨[], s, rfl, rfl⟩
      · rw [bytes_cons, List.getElem?_append_right hge] at hi
        obtain ⟨p, q, rfl, hp⟩ := ih hi
        refine ⟨c :: p, q, rfl, ?_⟩
        rw [bytes_cons, List.length_append, hp]
        omega

/-- A run of ASCII bytes is a run of characters. -/
theorem split_of_ascii_run {s : List Char} {run rest : List UInt8}
    (h : bytes s = run ++ rest) (hrun : ∀ b ∈ run, b.toNat < 128) :
    ∃ q, s = run.map charOf ++ q ∧ bytes q = rest := by
  induction run generalizing s with
  | nil => exact ⟨s, rfl, h⟩
  | cons b run ih =>
      have hb := hrun b List.mem_cons_self
      have h0 : (bytes s)[0]? = some b := by rw [h]; rfl
      obtain ⟨p, q, rfl, hp⟩ := split_of_ascii h0 hb
      obtain rfl : p = [] := bytes_eq_nil.mp (List.length_eq_zero_iff.mp hp)
      rw [List.nil_append, bytes_cons, encode_charOf hb] at h
      obtain ⟨q', rfl, hq'⟩ := ih (List.cons.inj h).2 (fun x hx => hrun x (List.mem_cons_of_mem _ hx))
      exact ⟨q', rfl, hq'⟩

/-! ## White space -/

/-- The Unicode `White_Space` property. -/
def isWhitespace (c : Char) : Bool :=
  let n := c.toNat
  (9 ≤ n && n ≤ 13) || n = 0x20 || n = 0x85 || n = 0xa0 || n = 0x1680 ||
    (0x2000 ≤ n && n ≤ 0x200a) || n = 0x2028 || n = 0x2029 || n = 0x202f || n = 0x205f ||
    n = 0x3000

/-- ASCII white space: space, tab, line feed, form feed and carriage return. -/
def isAsciiWhitespace (b : UInt8) : Bool :=
  b = 0x20 || b = 0x09 || b = 0x0a || b = 0x0c || b = 0x0d

def trimStart (s : List Char) : List Char := s.dropWhile isWhitespace

def trimEnd (s : List Char) : List Char := s.rdropWhile isWhitespace

def trim (s : List Char) : List Char := trimEnd (trimStart s)

/-- The characters of a text that are not white space. -/
def visible (s : List Char) : List Char := s.filter (fun c => !isWhitespace c)

@[simp] theorem visible_nil : visible [] = [] := rfl

@[simp] theorem visible_append (p q : List Char) : visible (p ++ q) = visible p ++ visible q :=
  List.filter_append _ _

theorem visible_eq_nil {s : List Char} : visible s = [] ↔ ∀ c ∈ s, isWhitespace c = true := by
  simp [visible, List.filter_eq_nil_iff]

@[simp] theorem visible_trimStart (s : List Char) : visible (trimStart s) = visible s := by
  induction s with
  | nil => rfl
  | cons c s ih =>
      unfold trimStart at ih ⊢
      rw [List.dropWhile_cons]
      by_cases hc : isWhitespace c = true
      · rw [if_pos hc, ih]
        simp [visible, hc]
      · rw [if_neg hc]

@[simp] theorem visible_trimEnd (s : List Char) : visible (trimEnd s) = visible s := by
  induction s using List.reverseRecOn with
  | nil => rfl
  | append_singleton s c ih =>
      unfold trimEnd at ih ⊢
      rw [List.rdropWhile_concat]
      by_cases hc : isWhitespace c = true
      · rw [if_pos hc, ih]
        simp [visible, hc]
      · rw [if_neg hc]

@[simp] theorem visible_trim (s : List Char) : visible (trim s) = visible s := by
  simp [trim]

theorem trimEnd_eq_nil {s : List Char} : trimEnd s = [] ↔ visible s = [] := by
  rw [visible_eq_nil]
  exact List.rdropWhile_eq_nil_iff

theorem trim_eq_nil {s : List Char} : trim s = [] ↔ visible s = [] := by
  rw [trim, trimEnd_eq_nil, visible_trimStart]

/-- Text without white space at its ends stays as it is. -/
theorem trim_eq_self {s : List Char} (hfirst : ∀ c ∈ s.head?, isWhitespace c = false)
    (hlast : ∀ c ∈ s.getLast?, isWhitespace c = false) : trim s = s := by
  have hstart : trimStart s = s := by
    cases s with
    | nil => rfl
    | cons c rest =>
        unfold trimStart
        rw [List.dropWhile_cons, hfirst c rfl]
        rfl
  rw [trim, hstart, trimEnd, List.rdropWhile_eq_self_iff]
  intro hne
  rw [hlast _ (List.getLast?_eq_some_getLast hne)]
  decide

/-- White space in front is not seen by `trim`. -/
theorem trim_append_left {w s : List Char} (hw : visible w = []) : trim (w ++ s) = trim s := by
  rw [visible_eq_nil] at hw
  unfold trim trimStart
  rw [List.dropWhile_append_of_pos hw]

/-- `trimEnd` works at the end only: what stands before a visible part stays. -/
theorem trimEnd_append_left {w s : List Char} (hs : visible s ≠ []) :
    trimEnd (w ++ s) = w ++ trimEnd s := by
  induction s using List.reverseRecOn with
  | nil => exact absurd rfl hs
  | append_singleton s c ih =>
      unfold trimEnd at ih ⊢
      rw [← List.append_assoc, List.rdropWhile_concat, List.rdropWhile_concat]
      by_cases hc : isWhitespace c = true
      · rw [if_pos hc, if_pos hc]
        apply ih
        simpa [visible, hc] using hs
      · rw [if_neg hc, if_neg hc, List.append_assoc]

theorem ascii_of_isAsciiWhitespace {b : UInt8} (h : isAsciiWhitespace b = true) :
    b.toNat < 128 := by
  simp only [isAsciiWhitespace, Bool.or_eq_true, decide_eq_true_eq] at h
  rcases h with (((rfl | rfl) | rfl) | rfl) | rfl <;> decide

/-- ASCII white space is white space. -/
theorem isWhitespace_charOf {b : UInt8} (h : isAsciiWhitespace b = true) :
    isWhitespace (charOf b) = true := by
  simp only [isAsciiWhitespace, Bool.or_eq_true, decide_eq_true_eq] at h
  rcases h with (((rfl | rfl) | rfl) | rfl) | rfl <;> decide

theorem visible_eq_nil_of_ascii {w : List Char}
    (hw : ∀ b ∈ bytes w, isAsciiWhitespace b = true) : visible w = [] := by
  obtain ⟨q, hq, hnil⟩ := split_of_ascii_run (List.append_nil (bytes w)).symm
    (fun b hb => ascii_of_isAsciiWhitespace (hw b hb))
  rw [bytes_eq_nil] at hnil
  rw [hq, hnil, List.append_nil, visible_eq_nil]
  intro c hc
  obtain ⟨b, hb, rfl⟩ := List.mem_map.mp hc
  exact isWhitespace_charOf (hw b hb)

/-! ## Decoding -/

/-- The character that some bytes start with. -/
def decodeFirst (bs : List UInt8) : Option Char :=
  ByteArray.utf8DecodeChar? ⟨(bs.take 4).toArray⟩ 0

/-- The characters of the longest valid prefix and the bytes after it. A byte of
fuel for each byte is enough. -/
def splitValidLoop : Nat → List UInt8 → List Char × List UInt8
  | 0, bs => ([], bs)
  | fuel + 1, bs =>
      match decodeFirst bs with
      | none => ([], bs)
      | some c =>
          let (cs, rest) := splitValidLoop fuel (bs.drop c.utf8Size)
          (c :: cs, rest)

def splitValid (bs : List UInt8) : List Char × List UInt8 := splitValidLoop bs.length bs

def isContinuation (b : UInt8) : Bool := 0x80 ≤ b && b ≤ 0xbf

/-- How many continuation bytes a first byte asks for, and whether the second
byte is one that may follow it. -/
def sequenceShape (first second : UInt8) : Nat × Bool :=
  if 0xc2 ≤ first ∧ first ≤ 0xdf then (1, isContinuation second)
  else if first = 0xe0 then (2, 0xa0 ≤ second && second ≤ 0xbf)
  else if first = 0xed then (2, 0x80 ≤ second && second ≤ 0x9f)
  else if 0xe1 ≤ first ∧ first ≤ 0xef then (2, isContinuation second)
  else if first = 0xf0 then (3, 0x90 ≤ second && second ≤ 0xbf)
  else if 0xf1 ≤ first ∧ first ≤ 0xf3 then (3, isContinuation second)
  else if first = 0xf4 then (3, 0x80 ≤ second && second ≤ 0x8f)
  else (0, false)

/-- The bytes one replacement character stands for: the longest start of a
sequence that is broken off. -/
def invalidLength : List UInt8 → Nat
  | first :: second :: rest =>
      let (more, fits) := sequenceShape first second
      if fits then 2 + ((rest.take (more - 1)).takeWhile isContinuation).length else 1
  | _ => 1

def fromUtf8LossyLoop : Nat → List UInt8 → List Char
  | 0, _ => []
  | fuel + 1, bs =>
      if bs = [] then []
      else
        match decodeFirst bs with
        | some c => c :: fromUtf8LossyLoop fuel (bs.drop c.utf8Size)
        | none => Char.ofNat 0xfffd :: fromUtf8LossyLoop fuel (bs.drop (invalidLength bs))

/-- Decode, with a replacement character for what is not valid. -/
def fromUtf8Lossy (bs : List UInt8) : List Char := fromUtf8LossyLoop bs.length bs

example : fromUtf8Lossy [0x61, 0xe2, 0x82, 0x41, 0xff] =
    ['a', Char.ofNat 0xfffd, 'A', Char.ofNat 0xfffd] := by decide +kernel

end Utf8
