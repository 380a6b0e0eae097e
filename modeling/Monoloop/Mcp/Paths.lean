import Monoloop.Lib.Decimal
import Monoloop.Mcp.Binding

/-!
# The path behind a capability

`gateway.rs` takes the token segment from the path of a request, looks its binding up and
forwards the request with the segment cut off. Three spellings of the token meet there:
the segment as it was sent, the segment as the extractor decodes it, and the lower-case
spelling that `to_hex` gives back. `rewrite_path` cuts the last one off the path as it
was sent.

The extractor's decoding and the parser of URIs belong to libraries and are parameters.
-/

namespace Monoloop.Mcp

abbrev Text := List Char

/-! ## Tokens as text -/

def hexNibble (c : Char) : Option Nat :=
  if '0' ≤ c ∧ c ≤ '9' then some (c.toNat - 48)
  else if 'a' ≤ c ∧ c ≤ 'f' then some (c.toNat - 87)
  else if 'A' ≤ c ∧ c ≤ 'F' then some (c.toNat - 55)
  else none

/-- The number that hexadecimal digits spell. -/
def hexValue (s : Text) : Nat := s.foldl (fun n c => 16 * n + (hexNibble c).getD 0) 0

/-- `CapabilityToken::from_hex`: 64 digits of either case. -/
def fromHex (s : Text) : Option (BitVec 256) :=
  if s.length = 64 ∧ s.all fun c => (hexNibble c).isSome then some (BitVec.ofNat 256 (hexValue s))
  else none

/-- `to_hex` of any 32 bytes. -/
def hexOf (bytes : BitVec 256) : Text :=
  ((List.range 64).map fun i => (bytes.toNat / 16 ^ (63 - i)) % 16).map hexChar

theorem toHex_eq (token : CapabilityToken) : token.toHex = String.ofList (hexOf token.bytes) := rfl

/-- The token of 32 bytes; none was ever drawn with zeros only. -/
def tokenOf (bytes : BitVec 256) : Option CapabilityToken :=
  if h : bytes ≠ 0 then some ⟨bytes, h⟩ else none

def McpRouteTable.getByHex (t : McpRouteTable) (hex : Text) : Option McpBinding :=
  ((fromHex hex).bind tokenOf).bind t.get

/-! ## Requests -/

/-- Path and query of a request. -/
structure Uri where
  path : Text
  query : Option Text
deriving DecidableEq, Repr

/-- `{path}?{query}` -/
def Uri.text (u : Uri) : Text := u.path ++ u.query.elim [] ('?' :: ·)

/-- A path the two routes match, `/mcp/{token}` and `/mcp/{token}/{*rest}`, cut after the
token segment. -/
structure McpPath where
  segment : Text
  remainder : Text
  one : '/' ∉ segment
  rooted : remainder = [] ∨ ∃ rest, remainder = '/' :: rest

def mcpRoot : Text := ['/', 'm', 'c', 'p', '/']

def McpPath.text (p : McpPath) : Text := mcpRoot ++ p.segment ++ p.remainder

/-- The library around the handler. `decode` is the percent-decoding of a path parameter,
`none` when the result is no text; characters other than a percent sign stand for
themselves. A URI that was parsed has a path whose end from a slash on parses too. -/
structure HttpLibrary where
  decode : Text → Option Text
  decode_nil : decode [] = some []
  decode_plain : ∀ p s, '%' ∉ p → decode (p ++ s) = (decode s).map (p ++ ·)
  decode_ne_nil : ∀ s, decode s = some [] → s = []
  parse : Text → Option Uri
  Parsed : Uri → Prop
  parse_end : ∀ (u : Uri) (p : Text), Parsed u → (p <:+ u.path ∨ p = ['/']) → p.head? = some '/' →
    parse (Uri.text ⟨p, u.query⟩) = some ⟨p, u.query⟩

/-- `str::strip_prefix` -/
def stripLead (lead s : Text) : Option Text :=
  if lead.isPrefixOf s then some (s.drop lead.length) else none

def rewritePath (http : HttpLibrary) (uri : Uri) (tokenHex : Text) : Uri :=
  let newPath :=
    match stripLead (mcpRoot ++ tokenHex) uri.path with
    | some rest => if rest.isEmpty then ['/'] else rest
    | none => uri.path
  match http.parse (Uri.text ⟨newPath, uri.query⟩) with
  | some uri => uri
  | none => uri

/-- What the inner service gets, when the gateway accepts the request. -/
def forwardMcp (t : McpRouteTable) (http : HttpLibrary) (p : McpPath) (query : Option Text) :
    Option Uri := do
  let tokenHex ← http.decode p.segment
  let bytes ← fromHex tokenHex
  let canonical := hexOf bytes
  let _ ← t.getByHex canonical
  some (rewritePath http ⟨p.text, query⟩ canonical)

/-! ## The spelling of a token -/

/-- The digits of a number, most significant first. -/
def nibblesOf : (width n : Nat) → List Nat
  | 0, _ => []
  | width + 1, n => nibblesOf width (n / 16) ++ [n % 16]

theorem nibblesOf_eq (width n : Nat) :
    (List.range width).map (fun i => n / 16 ^ (width - 1 - i) % 16) = nibblesOf width n := by
  induction width generalizing n with
  | zero => rfl
  | succ width ih =>
      rw [List.range_succ, List.map_append, nibblesOf, ← ih]
      congr 1
      · apply List.map_congr_left
        intro i hi
        have hlt := List.mem_range.mp hi
        rw [Nat.div_div_eq_div_mul, ← pow_succ']
        congr 3
        omega
      · simp

def hexDigits : Text := "0123456789abcdefABCDEF".toList

theorem mem_hexDigits {c : Char} (h : (hexNibble c).isSome = true) : c ∈ hexDigits := by
  have hrange : (48 ≤ c.toNat ∧ c.toNat ≤ 57) ∨ (97 ≤ c.toNat ∧ c.toNat ≤ 102) ∨
      (65 ≤ c.toNat ∧ c.toNat ≤ 70) := by
    unfold hexNibble at h
    split_ifs at h with hdec hlow hup
    · exact .inl hdec
    · exact .inr (.inl hlow)
    · exact .inr (.inr hup)
    · cases h
  rw [← Char.ofNat_toNat c]
  generalize c.toNat = n at hrange
  rcases hrange with ⟨hl, hu⟩ | ⟨hl, hu⟩ | ⟨hl, hu⟩ <;> interval_cases n <;> decide

/-- One lower-case spelling, and none of the characters with a meaning in a path. -/
def PlainDigit (c : Char) : Prop :=
  hexChar ((hexNibble c).getD 0) = c.toLower ∧ (hexNibble c).getD 0 < 16 ∧
    c.toLower ≠ '%' ∧ c.toLower ≠ '/' ∧ (c.toLower = c ↔ c.isUpper = false)

instance (c : Char) : Decidable (PlainDigit c) :=
  inferInstanceAs (Decidable (_ ∧ _ ∧ _ ∧ _ ∧ (_ ↔ _)))

theorem hexDigit_spec : ∀ c ∈ hexDigits, PlainDigit c := by
  have hall : hexDigits.all (fun c => decide (PlainDigit c)) = true := by decide +kernel
  intro c hc
  exact of_decide_eq_true (List.all_eq_true.mp hall c hc)

theorem hexValue_concat (s : Text) (c : Char) :
    hexValue (s ++ [c]) = 16 * hexValue s + (hexNibble c).getD 0 := by
  simp [hexValue]

theorem hexValue_lt {s : Text} (h : ∀ c ∈ s, c ∈ hexDigits) : hexValue s < 16 ^ s.length := by
  induction s using List.reverseRecOn with
  | nil => simp [hexValue]
  | append_singleton s c ih =>
      obtain ⟨-, hdigit, -⟩ := hexDigit_spec c (h c (by simp))
      have hrest := ih fun c hc => h c (by simp [hc])
      rw [hexValue_concat, List.length_append, List.length_singleton, pow_succ]
      omega

theorem nibblesOf_hexValue {s : Text} (h : ∀ c ∈ s, c ∈ hexDigits) :
    nibblesOf s.length (hexValue s) = s.map fun c => (hexNibble c).getD 0 := by
  induction s using List.reverseRecOn with
  | nil => rfl
  | append_singleton s c ih =>
      obtain ⟨-, hdigit, -⟩ := hexDigit_spec c (h c (by simp))
      have hdiv : hexValue (s ++ [c]) / 16 = hexValue s := by
        rw [hexValue_concat]
        omega
      have hmod : hexValue (s ++ [c]) % 16 = (hexNibble c).getD 0 := by
        rw [hexValue_concat]
        omega
      rw [List.length_append, List.length_singleton, nibblesOf, hdiv, hmod,
        ih fun c hc => h c (by simp [hc]), List.map_append, List.map_singleton]

theorem fromHex_eq_some {s : Text} {bytes : BitVec 256} (h : fromHex s = some bytes) :
    s.length = 64 ∧ (∀ c ∈ s, c ∈ hexDigits) ∧ bytes = BitVec.ofNat 256 (hexValue s) := by
  unfold fromHex at h
  split_ifs at h with hs
  refine ⟨hs.1, ?_, (Option.some.inj h).symm⟩
  intro c hc
  exact mem_hexDigits (List.all_eq_true.mp hs.2 c hc)

/-- **`to_hex` gives back the lower-case spelling** of what `from_hex` read. -/
theorem hexOf_fromHex {s : Text} {bytes : BitVec 256} (h : fromHex s = some bytes) :
    hexOf bytes = s.map Char.toLower := by
  obtain ⟨hlen, hdigits, rfl⟩ := fromHex_eq_some h
  have hlt := hexValue_lt hdigits
  rw [hlen] at hlt
  have hvalue : (BitVec.ofNat 256 (hexValue s)).toNat = hexValue s := by
    rw [BitVec.toNat_ofNat]
    exact Nat.mod_eq_of_lt (lt_of_lt_of_eq hlt (by norm_num))
  unfold hexOf
  rw [hvalue, show (63 : Nat) = 64 - 1 from rfl, nibblesOf_eq, ← hlen, nibblesOf_hexValue hdigits,
    List.map_map]
  apply List.map_congr_left
  intro c hc
  exact (hexDigit_spec c (hdigits c hc)).1

theorem hexOf_plain {s : Text} {bytes : BitVec 256} (h : fromHex s = some bytes) :
    (hexOf bytes).length = 64 ∧ '%' ∉ hexOf bytes ∧ '/' ∉ hexOf bytes := by
  obtain ⟨hlen, hdigits, -⟩ := fromHex_eq_some h
  rw [hexOf_fromHex h]
  refine ⟨by rw [List.length_map, hlen], ?_, ?_⟩
  · intro hmem
    obtain ⟨c, hc, heq⟩ := List.mem_map.mp hmem
    exact (hexDigit_spec c (hdigits c hc)).2.2.1 heq
  · intro hmem
    obtain ⟨c, hc, heq⟩ := List.mem_map.mp hmem
    exact (hexDigit_spec c (hdigits c hc)).2.2.2.1 heq

/-! ## What is forwarded -/

/-- The segment as `to_hex` spells it. -/
def Canonical (segment : Text) : Prop := ∀ c ∈ segment, c ≠ '%' ∧ c.isUpper = false

section

variable {http : HttpLibrary} {segment hex : Text} {bytes : BitVec 256}

theorem decode_of_plain (h : '%' ∉ segment) : http.decode segment = some segment := by
  have hplain := http.decode_plain segment [] h
  rwa [List.append_nil, http.decode_nil, Option.map_some, List.append_nil] at hplain

theorem segment_eq_iff (hdecode : http.decode segment = some hex) (hhex : fromHex hex = some bytes) :
    segment = hexOf bytes ↔ Canonical segment := by
  obtain ⟨hlen, hdigits, -⟩ := fromHex_eq_some hhex
  obtain ⟨-, hpercent, -⟩ := hexOf_plain hhex
  constructor
  · intro heq
    have hsame : segment = hex := by
      rw [← heq] at hpercent
      exact Option.some.inj ((decode_of_plain hpercent).symm.trans hdecode)
    subst hsame
    rw [hexOf_fromHex hhex] at heq
    have hfixed : ∀ c ∈ segment, c.toLower = id c :=
      List.map_inj_left.mp (heq.symm.trans (List.map_id segment).symm)
    intro c hc
    obtain ⟨-, -, hnot, -, hlower⟩ := hexDigit_spec c (hdigits c hc)
    refine ⟨?_, hlower.mp (hfixed c hc)⟩
    rintro rfl
    exact hnot (hfixed '%' hc)
  · intro hcanonical
    have hplain : '%' ∉ segment := fun hmem => (hcanonical '%' hmem).1 rfl
    obtain rfl : segment = hex := Option.some.inj ((decode_of_plain hplain).symm.trans hdecode)
    have hfixed : ∀ c ∈ segment, c.toLower = id c := fun c hc =>
      (hexDigit_spec c (hdigits c hc)).2.2.2.2.mpr (hcanonical c hc).2
    rw [hexOf_fromHex hhex, List.map_congr_left hfixed, List.map_id]

theorem stripLead_eq_some {lead s rest : Text} : stripLead lead s = some rest ↔ s = lead ++ rest := by
  unfold stripLead
  constructor
  · intro h
    split_ifs at h with hlead
    obtain ⟨tail, rfl⟩ := List.isPrefixOf_iff_prefix.mp hlead
    rw [← Option.some.inj h, List.drop_left]
  · rintro rfl
    rw [if_pos (by simp), List.drop_left]

/-- **The prefix is found exactly behind a canonical segment.** A longer segment that
begins with the token does not decode to 64 digits. -/
theorem stripLead_path {p : McpPath} (hdecode : http.decode p.segment = some hex)
    (hhex : fromHex hex = some bytes) :
    stripLead (mcpRoot ++ hexOf bytes) p.text =
      if p.segment = hexOf bytes then some p.remainder else none := by
  obtain ⟨hlen, hpercent, hslash⟩ := hexOf_plain hhex
  by_cases heq : p.segment = hexOf bytes
  · rw [if_pos heq, stripLead_eq_some, ← heq]
    rfl
  · rw [if_neg heq, Option.eq_none_iff_forall_ne_some]
    intro rest hrest
    rw [stripLead_eq_some, McpPath.text, List.append_assoc, List.append_assoc,
      List.append_cancel_left_eq] at hrest
    rcases List.append_eq_append_iff.mp hrest with ⟨more, hbytes, hremainder⟩ | ⟨more, hsegment, -⟩
    · -- the segment would be cut short by a slash inside the digits
      cases more with
      | nil => exact heq (by rw [hbytes, List.append_nil])
      | cons c more =>
          rcases p.rooted with hnil | ⟨tail, htail⟩
          · rw [hnil] at hremainder
            cases hremainder
          · rw [htail] at hremainder
            obtain rfl : '/' = c := (List.cons.inj hremainder).1
            exact hslash (hbytes ▸ by simp)
    · rw [hsegment, http.decode_plain _ _ hpercent] at hdecode
      obtain ⟨tail, htail, hjoin⟩ := Option.map_eq_some_iff.mp hdecode
      have hhexlen := (fromHex_eq_some hhex).1
      rw [← hjoin, List.length_append, hlen] at hhexlen
      have htail' : tail = [] := List.eq_nil_of_length_eq_zero (by omega)
      rw [htail'] at htail
      rw [http.decode_ne_nil more htail, List.append_nil] at hsegment
      exact heq hsegment

/-- The remainder of the path, or the root when there is none. -/
def McpPath.target (p : McpPath) : Text := if p.remainder.isEmpty then ['/'] else p.remainder

/-- The token of a path, as the gateway reads it. -/
def McpPath.token (http : HttpLibrary) (p : McpPath) : Option (BitVec 256) :=
  (http.decode p.segment).bind fromHex

/-- Some part of the text is a spelling of the token. -/
def Spells (http : HttpLibrary) (bytes : BitVec 256) (text : Text) : Prop :=
  ∃ part, part <:+: text ∧ (http.decode part).bind fromHex = some bytes

/-- The token of the path is spelled in a text. -/
def McpPath.Leaks (http : HttpLibrary) (p : McpPath) (text : Text) : Prop :=
  ∃ bytes, p.token http = some bytes ∧ Spells http bytes text

theorem rewritePath_eq {p : McpPath} {query : Option Text} (hparsed : http.Parsed ⟨p.text, query⟩)
    (hdecode : http.decode p.segment = some hex) (hhex : fromHex hex = some bytes) :
    rewritePath http ⟨p.text, query⟩ (hexOf bytes) =
      if p.segment = hexOf bytes then ⟨p.target, query⟩ else ⟨p.text, query⟩ := by
  unfold rewritePath
  simp only [stripLead_path hdecode hhex]
  split_ifs with heq
  · have hend : http.parse (Uri.text ⟨p.target, query⟩) = some ⟨p.target, query⟩ := by
      refine http.parse_end ⟨p.text, query⟩ p.target hparsed ?_ ?_
      · unfold McpPath.target
        split_ifs
        · exact .inr rfl
        · exact .inl (List.suffix_append _ _)
      · unfold McpPath.target
        rcases p.rooted with hnil | ⟨rest, hrest⟩
        · rw [hnil]
          rfl
        · rw [hrest]
          rfl
    unfold McpPath.target at hend ⊢
    simp only [hend]
  · have hwhole := http.parse_end ⟨p.text, query⟩ p.text hparsed (.inl List.suffix_rfl) rfl
    simp only [hwhole]

theorem forwardMcp_eq_some {t : McpRouteTable} {p : McpPath} {query : Option Text} {u : Uri}
    (hparsed : http.Parsed ⟨p.text, query⟩) (h : forwardMcp t http p query = some u) :
    ∃ bytes, p.token http = some bytes ∧
      (Canonical p.segment ∧ u = ⟨p.target, query⟩ ∨
        ¬ Canonical p.segment ∧ u = ⟨p.text, query⟩) := by
  unfold forwardMcp at h
  simp only [Option.bind_eq_bind, Option.bind_eq_some_iff] at h
  obtain ⟨hex, hdecode, bytes, hhex, -, -, hu⟩ := h
  obtain rfl := Option.some.inj hu
  refine ⟨bytes, by rw [McpPath.token, hdecode, Option.bind_some, hhex], ?_⟩
  rw [rewritePath_eq hparsed hdecode hhex]
  by_cases heq : p.segment = hexOf bytes
  · rw [if_pos heq]
    exact .inl ⟨(segment_eq_iff hdecode hhex).mp heq, rfl⟩
  · rw [if_neg heq]
    exact .inr ⟨fun hc => heq ((segment_eq_iff hdecode hhex).mpr hc), rfl⟩

theorem not_spells_root (bytes : BitVec 256) : ¬ Spells http bytes ['/'] := by
  rintro ⟨part, hpart, hspell⟩
  have hplain : '%' ∉ part := fun hmem => by
    have hslash := hpart.subset hmem
    simp at hslash
  rw [decode_of_plain hplain, Option.bind_some] at hspell
  have hlen := (fromHex_eq_some hspell).1
  have hle := hpart.length_le
  rw [hlen] at hle
  simp at hle

theorem leaks_target (p : McpPath) : p.Leaks http p.target ↔ p.Leaks http p.remainder := by
  unfold McpPath.target
  split_ifs with hempty
  · rw [List.isEmpty_iff.mp hempty]
    constructor
    · rintro ⟨bytes, -, hspells⟩
      exact absurd hspells (not_spells_root bytes)
    · rintro ⟨bytes, htoken, part, hpart, hspell⟩
      exact ⟨bytes, htoken, part, hpart.trans (List.nil_infix), hspell⟩
  · rfl

/-- **What is forwarded is the rest of the path, without the token, exactly when the
segment is spelled in lower case without escapes** and the rest does not itself spell the
token. -/
theorem forwarded_iff {t : McpRouteTable} {p : McpPath} {query : Option Text} {u : Uri}
    (hparsed : http.Parsed ⟨p.text, query⟩) (h : forwardMcp t http p query = some u) :
    (u = ⟨p.target, query⟩ ∧ ¬ p.Leaks http u.path) ↔
      Canonical p.segment ∧ ¬ p.Leaks http p.remainder := by
  obtain ⟨bytes, htoken, ⟨hcanonical, rfl⟩ | ⟨hnot, rfl⟩⟩ := forwardMcp_eq_some hparsed h
  · rw [← leaks_target]
    simp [hcanonical]
  · refine ⟨?_, fun hright => absurd hright.1 hnot⟩
    rintro ⟨-, hleaks⟩
    -- the whole path has the segment in it
    refine absurd ⟨bytes, htoken, p.segment, ?_, htoken⟩ hleaks
    exact ⟨mcpRoot, p.remainder, rfl⟩

end

/-! ## A library and two requests -/

/-- Percent-decoding of ASCII characters; an escape that is none stands for itself. -/
def decodeAscii : Text → Option Text
  | [] => some []
  | '%' :: a :: b :: rest =>
      match hexNibble a, hexNibble b with
      | some hi, some lo =>
          if hi < 8 then (decodeAscii rest).map (Char.ofNat (16 * hi + lo) :: ·) else none
      | _, _ => (decodeAscii (a :: b :: rest)).map ('%' :: ·)
  | c :: rest => (decodeAscii rest).map (c :: ·)

theorem decodeAscii_cons {c : Char} (h : c ≠ '%') (rest : Text) :
    decodeAscii (c :: rest) = (decodeAscii rest).map (c :: ·) := by
  rw [decodeAscii]
  intro a b rest' hc
  exact absurd hc h

theorem decodeAscii_ne_nil {s : Text} (h : decodeAscii s = some []) : s = [] := by
  unfold decodeAscii at h
  split at h
  · rfl
  · split at h
    · split_ifs at h
      simp at h
    · simp at h
  · simp at h

/-- A library that cuts a URI at its question mark. -/
def sampleHttp : HttpLibrary where
  decode := decodeAscii
  decode_nil := rfl
  decode_plain := by
    intro p s hp
    induction p with
    | nil => simp
    | cons c p ih =>
        obtain ⟨hc, hp⟩ := List.ne_and_not_mem_of_not_mem_cons hp
        rw [List.cons_append, decodeAscii_cons hc.symm, ih hp, Option.map_map]
        rfl
  decode_ne_nil _ := decodeAscii_ne_nil
  parse s :=
    match Decimal.splitOnce '?' s with
    | some (path, query) => some ⟨path, some query⟩
    | none => some ⟨s, none⟩
  Parsed u := '?' ∉ u.path
  parse_end := by
    intro u p hparsed hp _
    have hplain : '?' ∉ p := by
      rcases hp with hp | rfl
      · exact fun hmem => hparsed (hp.subset hmem)
      · decide
    obtain ⟨path, query⟩ := u
    cases query with
    | none =>
        simp only [Uri.text, Option.elim_none, List.append_nil, Decimal.splitOnce_eq_none hplain]
    | some q => simp only [Uri.text, Option.elim_some, Decimal.splitOnce_append hplain]

/-- A token that ends in a letter. -/
def sampleToken : CapabilityToken := ⟨10#256, by decide⟩

def sampleTable : McpRouteTable :=
  ((McpRouteTable.new 1).installPending "http://127.0.0.1:80" ⟨1⟩ (some sampleToken)).1

/-- A path below the token, with its last digit as given. -/
def samplePath (last : Char) (h : last ≠ '/') : McpPath where
  segment := List.replicate 63 '0' ++ [last]
  remainder := "/sse".toList
  one := by simp [Ne.symm h]
  rooted := .inr ⟨_, rfl⟩

theorem lower_case_forwarded :
    ((⟨"/sse".toList, none⟩ : Uri) = ⟨(samplePath 'a' (by decide)).target, none⟩ ∧
        ¬ (samplePath 'a' (by decide)).Leaks sampleHttp (⟨"/sse".toList, none⟩ : Uri).path) ↔
      Canonical (samplePath 'a' (by decide)).segment ∧
        ¬ (samplePath 'a' (by decide)).Leaks sampleHttp (samplePath 'a' (by decide)).remainder :=
  forwarded_iff (t := sampleTable) (show '?' ∉ _ by decide) (by decide +kernel)

/-- **An upper-case spelling**: the gateway accepts it and forwards the whole path. -/
theorem upper_case_leaks :
    ∃ u, forwardMcp sampleTable sampleHttp (samplePath 'A' (by decide)) none = some u ∧
      u.path = (samplePath 'A' (by decide)).text ∧ u.path ≠ "/sse".toList := by
  refine ⟨⟨(samplePath 'A' (by decide)).text, none⟩, by decide +kernel, rfl, by decide +kernel⟩

end Monoloop.Mcp
