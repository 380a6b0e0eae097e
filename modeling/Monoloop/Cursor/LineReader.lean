import Monoloop.Cursor.Inbound

/-!
# Reading lines with a bound

`read_line_bounded` of `process.rs` collects a line from whatever pieces its reader has
ready. The reader decides at each `fill_buf` how much of the rest of the stream it shows;
a newline or the bound may fall anywhere in a piece.

The lines of the stream itself, `lines`, know nothing of pieces. `readLines` calls the
function until it does not return a line.
-/

namespace Monoloop.Cursor

/-! ## Lines of a stream -/

def newline : UInt8 := 0x0a

/-- The first line with its newline, and what follows it. -/
def cutLine : List UInt8 → List UInt8 × List UInt8
  | [] => ([], [])
  | b :: rest => if b = newline then ([b], rest) else (b :: (cutLine rest).1, (cutLine rest).2)

/-- The lines of a stream with their newlines; the last one may be without. -/
def lines : List UInt8 → List (List UInt8)
  | [] => []
  | b :: rest =>
      if b = newline then [b] :: lines rest
      else
        match lines rest with
        | [] => [[b]]
        | l :: ls => (b :: l) :: ls

/-- The lines are the stream, cut after its newlines. -/
theorem lines_flatten (s : List UInt8) : (lines s).flatten = s := by
  induction s with
  | nil => rfl
  | cons b s ih =>
      rw [lines]
      split_ifs with hb
      · rw [List.flatten_cons, ih, List.singleton_append]
      · cases hs : lines s with
        | nil =>
            rw [hs] at ih
            rw [← ih]
            rfl
        | cons l ls =>
            rw [hs] at ih
            rw [← ih]
            rfl

/-! ## The reader -/

/-- `AsyncBufRead`: `rest` is what the stream still has, and the fill number `n` shows
`sizes n + 1` bytes of it, or all when there are fewer. -/
structure Reader where
  rest : List UInt8
  sizes : Nat → Nat
  fills : Nat

namespace Reader

/-- What `fill_buf` shows; nothing at the end of the stream only. -/
def available (r : Reader) : List UInt8 := r.rest.take (r.sizes r.fills + 1)

/-- `consume`, after a `fill_buf`. -/
def consume (r : Reader) (n : Nat) : Reader :=
  { r with rest := r.rest.drop n, fills := r.fills + 1 }

end Reader

def lineTooLong : CursorConnectorError := ⟨.protocolFailed, "ndjson line exceeds max_line_bytes"⟩

/-- `String::from_utf8_lossy` -/
def lossyText (bytes : List UInt8) : String := String.ofList (Utf8.fromUtf8Lossy bytes)

/-- What one round of the loop does with its buffer. -/
inductive Round where
  | more (buf : List UInt8) (r : Reader)
  | returned (buf : List UInt8) (result : Except CursorConnectorError (Option String)) (r : Reader)

/-- One round: a `fill_buf` and what follows from it. -/
def fillOnce (maxBytes : Nat) (buf : List UInt8) (r : Reader) : Round :=
  if r.available = [] then
    if buf = [] then .returned buf (.ok none) (r.consume 0)
    else .returned buf (.ok (some (lossyText buf))) (r.consume 0)
  else
    match r.available.findIdx? (· = newline) with
    | some pos =>
        let take := pos + 1
        if maxBytes < buf.length + take then
          .returned buf (.error lineTooLong) (r.consume take)
        else
          let buf := buf ++ r.available.take take
          .returned buf (.ok (some (lossyText buf))) (r.consume take)
    | none =>
        if maxBytes < buf.length + r.available.length then
          .returned buf (.error lineTooLong) (r.consume r.available.length)
        else .more (buf ++ r.available) (r.consume r.available.length)

/-- A finished call; `peak` is the length of the longest buffer it had. -/
structure LineRead where
  result : Except CursorConnectorError (Option String)
  reader : Reader
  peak : Nat

theorem fillOnce_more {maxBytes : Nat} {buf buf' : List UInt8} {r r' : Reader}
    (h : fillOnce maxBytes buf r = .more buf' r') : r'.rest.length < r.rest.length := by
  unfold fillOnce at h
  split at h
  · split at h <;> cases h
  · rename_i hne
    split at h
    · dsimp only at h
      split at h <;> cases h
    · split at h
      · cases h
      · cases h
        have hpos := List.length_pos_of_ne_nil hne
        have hle : r.available.length ≤ r.rest.length := List.length_take_le' _ _
        simp only [Reader.consume, List.length_drop]
        omega

/-- The loop. -/
def readLoop (maxBytes : Nat) (buf : List UInt8) (r : Reader) : LineRead :=
  match _h : fillOnce maxBytes buf r with
  | .more buf' r' =>
      let read := readLoop maxBytes buf' r'
      { read with peak := max buf.length read.peak }
  | .returned buf' result r' => ⟨result, r', max buf.length buf'.length⟩
termination_by r.rest.length
decreasing_by exact fillOnce_more _h

def readLineBounded (r : Reader) (maxBytes : Nat) : LineRead := readLoop (max maxBytes 1) [] r

/-! ## One call -/

section Lines

variable {p q : List UInt8}

theorem cutLine_of_newline (h : newline ∉ p) :
    cutLine (p ++ newline :: q) = (p ++ [newline], q) := by
  induction p with
  | nil => simp [cutLine]
  | cons b p ih =>
      obtain ⟨hb, hp⟩ := List.ne_and_not_mem_of_not_mem_cons h
      rw [List.cons_append, cutLine, if_neg hb.symm, ih hp]
      rfl

theorem cutLine_append (h : newline ∉ p) :
    cutLine (p ++ q) = (p ++ (cutLine q).1, (cutLine q).2) := by
  induction p with
  | nil => rfl
  | cons b p ih =>
      obtain ⟨hb, hp⟩ := List.ne_and_not_mem_of_not_mem_cons h
      rw [List.cons_append, cutLine, if_neg hb.symm, ih hp]
      rfl

/-- Nothing of the stream is lost. -/
theorem cutLine_join (s : List UInt8) : (cutLine s).1 ++ (cutLine s).2 = s := by
  induction s with
  | nil => rfl
  | cons b s ih =>
      rw [cutLine]
      split_ifs
      · rfl
      · rw [List.cons_append, ih]

theorem cutLine_ne_nil {s : List UInt8} (h : s ≠ []) : (cutLine s).1 ≠ [] := by
  cases s with
  | nil => exact absurd rfl h
  | cons b s =>
      rw [cutLine]
      split_ifs <;> simp

theorem lines_eq {s : List UInt8} (h : s ≠ []) :
    lines s = (cutLine s).1 :: lines (cutLine s).2 := by
  induction s with
  | nil => exact absurd rfl h
  | cons b s ih =>
      rw [lines, cutLine]
      split_ifs with hb
      · rfl
      · cases s with
        | nil => rfl
        | cons c s => rw [ih (List.cons_ne_nil c s)]

theorem findNewline (more : List UInt8) (h : newline ∉ p) :
    (p ++ newline :: more).findIdx? (· = newline) = some p.length := by
  induction p with
  | nil => rfl
  | cons b p ih =>
      obtain ⟨hb, hp⟩ := List.ne_and_not_mem_of_not_mem_cons h
      rw [List.cons_append, List.findIdx?_cons, ih hp]
      simp [Ne.symm hb]

end Lines

/-- Where a reader stands and what it shows. -/
inductive Shown (r : Reader) : Prop where
  /-- The stream is at its end. -/
  | nothing (hrest : r.rest = []) (havailable : r.available = [])
  | piece (p q : List UInt8) (hrest : r.rest = p ++ q) (hne : p ≠ []) (hp : newline ∉ p)
      (havailable : r.available = p)
  | line (p q more : List UInt8) (hrest : r.rest = p ++ newline :: q) (hp : newline ∉ p)
      (havailable : r.available = p ++ newline :: more)

theorem shown (r : Reader) : Shown r := by
  have hsplit : r.rest = r.available ++ r.rest.drop (r.sizes r.fills + 1) :=
    (List.take_append_drop _ _).symm
  by_cases hmem : newline ∈ r.available
  · obtain ⟨p, more, havailable, hp⟩ := List.eq_append_cons_of_mem hmem
    rw [havailable, List.append_assoc] at hsplit
    exact .line p _ more hsplit hp havailable
  · by_cases hempty : r.available = []
    · refine .nothing ?_ hempty
      unfold Reader.available at hempty
      rw [List.take_eq_nil_iff] at hempty
      exact hempty.resolve_left (Nat.succ_ne_zero _)
    · exact .piece _ _ hsplit hempty hmem rfl

section Calls

variable {maxBytes : Nat} {buf : List UInt8} {r : Reader}

theorem fillOnce_nothing (maxBytes : Nat) (buf : List UInt8) (h : r.available = []) :
    fillOnce maxBytes buf r =
      .returned buf (.ok (if buf = [] then none else some (lossyText buf))) (r.consume 0) := by
  unfold fillOnce
  rw [if_pos h]
  split_ifs <;> rfl

theorem fillOnce_piece (maxBytes : Nat) (buf : List UInt8) {p : List UInt8} (h : r.available = p)
    (hne : p ≠ []) (hp : newline ∉ p) :
    fillOnce maxBytes buf r =
      if maxBytes < buf.length + p.length then
        .returned buf (.error lineTooLong) (r.consume p.length)
      else .more (buf ++ p) (r.consume p.length) := by
  have hfind : p.findIdx? (· = newline) = none := by
    rw [List.findIdx?_eq_none_iff]
    intro b hb
    rw [decide_eq_false_iff_not]
    rintro rfl
    exact hp hb
  unfold fillOnce
  rw [h, if_neg hne, hfind]

theorem fillOnce_line (maxBytes : Nat) (buf : List UInt8) {p more : List UInt8}
    (h : r.available = p ++ newline :: more) (hp : newline ∉ p) :
    fillOnce maxBytes buf r =
      if maxBytes < buf.length + (p.length + 1) then
        .returned buf (.error lineTooLong) (r.consume (p.length + 1))
      else
        .returned (buf ++ (p ++ [newline])) (.ok (some (lossyText (buf ++ (p ++ [newline])))))
          (r.consume (p.length + 1)) := by
  have hfind := findNewline more hp
  have htake : (p ++ newline :: more).take (p.length + 1) = p ++ [newline] := by
    simp [List.take_append]
  unfold fillOnce
  rw [h, if_neg (by simp), hfind]
  dsimp only
  rw [htake]

theorem readLoop_more {buf' : List UInt8} {r' : Reader}
    (h : fillOnce maxBytes buf r = .more buf' r') :
    readLoop maxBytes buf r =
      { readLoop maxBytes buf' r' with
        peak := max buf.length (readLoop maxBytes buf' r').peak } := by
  rw [readLoop]
  split
  · rename_i heq
    rw [h] at heq
    cases heq
    rfl
  · rename_i heq
    rw [h] at heq
    cases heq

theorem readLoop_returned {buf' : List UInt8} {r' : Reader}
    {result : Except CursorConnectorError (Option String)}
    (h : fillOnce maxBytes buf r = .returned buf' result r') :
    readLoop maxBytes buf r = ⟨result, r', max buf.length buf'.length⟩ := by
  rw [readLoop]
  split
  · rename_i heq
    rw [h] at heq
    cases heq
  · rename_i heq
    rw [h] at heq
    cases heq
    rfl

/-- **What a call finds** with `line` before its reader and `rest` behind that line. -/
structure Finds (maxBytes : Nat) (line rest : List UInt8) (read : LineRead) : Prop where
  peak : read.peak ≤ maxBytes
  fits : line.length ≤ maxBytes →
    read.result = .ok (if line = [] then none else some (lossyText line)) ∧ read.reader.rest = rest
  long : maxBytes < line.length → read.result = .error lineTooLong

theorem readLoop_finds (hbuf : buf.length ≤ maxBytes) :
    Finds maxBytes (buf ++ (cutLine r.rest).1) (cutLine r.rest).2 (readLoop maxBytes buf r) := by
  induction hn : r.rest.length using Nat.strong_induction_on generalizing buf r with
  | _ n ih =>
      subst hn
      rcases shown r with ⟨hrest, havailable⟩ | ⟨p, q, hrest, hne, hp, havailable⟩ |
        ⟨p, q, more, hrest, hp, havailable⟩
      · have hround := fillOnce_nothing maxBytes buf havailable
        rw [readLoop_returned hround, hrest]
        refine ⟨by simp [hbuf], fun _ => ?_, fun hlong => ?_⟩
        · simp [cutLine, Reader.consume, hrest]
        · simp [cutLine] at hlong
          omega
      · rw [hrest, cutLine_append hp, ← List.append_assoc]
        have hround := fillOnce_piece maxBytes buf havailable hne hp
        by_cases hover : maxBytes < buf.length + p.length
        · rw [if_pos hover] at hround
          rw [readLoop_returned hround]
          refine ⟨by simp [hbuf], fun hfits => ?_, fun _ => rfl⟩
          simp only [List.length_append] at hfits
          omega
        · rw [if_neg hover] at hround
          have hconsume : (r.consume p.length).rest = q := by
            simp [Reader.consume, hrest]
          have hpos := List.length_pos_of_ne_nil hne
          have hlt : (r.consume p.length).rest.length < r.rest.length := by
            rw [hconsume, hrest, List.length_append]
            omega
          have hbuf' : (buf ++ p).length ≤ maxBytes := by
            rw [List.length_append]
            omega
          have hrec := ih _ hlt hbuf' rfl
          rw [hconsume] at hrec
          rw [readLoop_more hround]
          exact ⟨Nat.max_le.mpr ⟨hbuf, hrec.peak⟩, hrec.fits, hrec.long⟩
      · rw [hrest, cutLine_of_newline hp]
        have hround := fillOnce_line maxBytes buf havailable hp
        by_cases hover : maxBytes < buf.length + (p.length + 1)
        · rw [if_pos hover] at hround
          rw [readLoop_returned hround]
          refine ⟨by simp [hbuf], fun hfits => ?_, fun _ => rfl⟩
          simp only [List.length_append, List.length_singleton] at hfits
          omega
        · rw [if_neg hover] at hround
          rw [readLoop_returned hround]
          have hline : (buf ++ (p ++ [newline])).length ≤ maxBytes := by
            simp only [List.length_append, List.length_singleton]
            omega
          refine ⟨Nat.max_le.mpr ⟨hbuf, hline⟩, fun _ => ⟨?_, ?_⟩, fun hlong => absurd hline (Nat.not_le.mpr hlong)⟩
          · rw [if_neg (by simp)]
          · simp [Reader.consume, hrest, List.drop_append]

end Calls

/-! ## All calls -/

/-- The next call, from an empty buffer. -/
theorem readLineBounded_finds (r : Reader) (maxBytes : Nat) :
    Finds (max maxBytes 1) (cutLine r.rest).1 (cutLine r.rest).2 (readLineBounded r maxBytes) :=
  @readLoop_finds _ [] _ (Nat.zero_le _)

theorem rest_lt_of_line {r : Reader} {maxBytes : Nat} {line : String}
    (h : (readLineBounded r maxBytes).result = .ok (some line)) :
    (readLineBounded r maxBytes).reader.rest.length < r.rest.length := by
  have hfinds := readLineBounded_finds r maxBytes
  by_cases hfits : (cutLine r.rest).1.length ≤ max maxBytes 1
  · obtain ⟨hresult, hrest⟩ := hfinds.fits hfits
    rw [hresult] at h
    have hne : (cutLine r.rest).1 ≠ [] := by
      intro hnil
      rw [if_pos hnil] at h
      cases h
    have hpos := List.length_pos_of_ne_nil hne
    have hjoin := congrArg List.length (cutLine_join r.rest)
    rw [List.length_append] at hjoin
    rw [hrest]
    omega
  · rw [hfinds.long (Nat.lt_of_not_le hfits)] at h
    cases h

/-- The calls up to the first that does not return a line: the lines, whether the stream
ended, and the length of the longest buffer. -/
structure Reading where
  lines : List String
  ended : Except CursorConnectorError Unit
  peak : Nat

def readLines (r : Reader) (maxBytes : Nat) : Reading :=
  match _h : (readLineBounded r maxBytes).result with
  | .ok (some line) =>
      let reading := readLines (readLineBounded r maxBytes).reader maxBytes
      { reading with
        lines := line :: reading.lines
        peak := max (readLineBounded r maxBytes).peak reading.peak }
  | .ok none => ⟨[], .ok (), (readLineBounded r maxBytes).peak⟩
  | .error e => ⟨[], .error e, (readLineBounded r maxBytes).peak⟩
termination_by r.rest.length
decreasing_by exact rest_lt_of_line _h

theorem readLines_line {r : Reader} {maxBytes : Nat} {line : String}
    (h : (readLineBounded r maxBytes).result = .ok (some line)) :
    readLines r maxBytes =
      { readLines (readLineBounded r maxBytes).reader maxBytes with
        lines := line :: (readLines (readLineBounded r maxBytes).reader maxBytes).lines
        peak := max (readLineBounded r maxBytes).peak
          (readLines (readLineBounded r maxBytes).reader maxBytes).peak } := by
  rw [readLines.eq_def]
  split <;> rename_i heq <;> rw [h] at heq <;> cases heq
  rfl

theorem readLines_none {r : Reader} {maxBytes : Nat}
    (h : (readLineBounded r maxBytes).result = .ok none) :
    readLines r maxBytes = ⟨[], .ok (), (readLineBounded r maxBytes).peak⟩ := by
  rw [readLines.eq_def]
  split <;> rename_i heq <;> rw [h] at heq <;> cases heq

theorem readLines_error {r : Reader} {maxBytes : Nat} {e : CursorConnectorError}
    (h : (readLineBounded r maxBytes).result = .error e) :
    readLines r maxBytes = ⟨[], .error e, (readLineBounded r maxBytes).peak⟩ := by
  rw [readLines.eq_def]
  split <;> rename_i heq <;> rw [h] at heq <;> cases heq
  rfl

/-- The lines that fit, up to the first that does not. -/
def fitting (maxBytes : Nat) (s : List UInt8) : List (List UInt8) :=
  (lines s).takeWhile fun line => line.length ≤ max maxBytes 1

/-- **The calls return the lines of the stream**, whatever pieces the reader shows, up to
the first that is too long, and no buffer outgrows the bound. -/
theorem readLines_eq (r : Reader) (maxBytes : Nat) :
    (readLines r maxBytes).lines = (fitting maxBytes r.rest).map lossyText ∧
      (readLines r maxBytes).ended =
        (if fitting maxBytes r.rest = lines r.rest then .ok () else .error lineTooLong) ∧
      (readLines r maxBytes).peak ≤ max maxBytes 1 := by
  induction hn : r.rest.length using Nat.strong_induction_on generalizing r with
  | _ n ih =>
      subst hn
      have hfinds := readLineBounded_finds r maxBytes
      by_cases hend : r.rest = []
      · have hfits : (cutLine r.rest).1.length ≤ max maxBytes 1 := by
          rw [hend]
          exact Nat.zero_le _
        have hresult := (hfinds.fits hfits).1
        rw [hend] at hresult
        rw [readLines_none hresult, hend]
        exact ⟨rfl, rfl, hfinds.peak⟩
      · have hlines := lines_eq hend
        by_cases hfits : (cutLine r.rest).1.length ≤ max maxBytes 1
        · obtain ⟨hresult, hrest⟩ := hfinds.fits hfits
          rw [if_neg (cutLine_ne_nil hend)] at hresult
          obtain ⟨hmore, hended, hpeak⟩ := ih _ (rest_lt_of_line hresult) _ rfl
          have hfitting : fitting maxBytes r.rest =
              (cutLine r.rest).1 :: fitting maxBytes (cutLine r.rest).2 := by
            unfold fitting
            rw [hlines, List.takeWhile_cons, if_pos (decide_eq_true hfits)]
          rw [readLines_line hresult, hfitting, hlines]
          rw [hrest] at hmore hended
          refine ⟨?_, ?_, Nat.max_le.mpr ⟨hfinds.peak, hpeak⟩⟩
          · simp only [hmore, List.map_cons]
          · simp only [hended, List.cons.injEq, true_and]
        · have hfitting : fitting maxBytes r.rest = [] := by
            unfold fitting
            rw [hlines, List.takeWhile_cons, if_neg (by simpa using hfits)]
          rw [readLines_error (hfinds.long (Nat.lt_of_not_le hfits)), hfitting, hlines]
          exact ⟨rfl, rfl, hfinds.peak⟩

end Monoloop.Cursor
