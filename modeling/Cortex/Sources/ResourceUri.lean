import Cortex.Sources.Intent
import Cortex.Sources.Pages

/-!
# Resource URIs

`parse_resource_uri` is the inverse of percent-encoding: a root and segments that are safe have
one URI, which is accepted and names them, and no other text is accepted.

An escape of a quoted text stands for one byte, and a byte below 128 is a character of its own.
So the ban on encoded separators is the ban on separators, and no escape is a bad one.
-/

namespace Cortex.Sources

open PyText UrlSplit

variable {unicode : UnicodeData} {ip : IpCheck}

/-! ## Quoting and unquoting -/

theorem anyTail_cons (test : List Char → Bool) (c : Char) (s : List Char) :
    anyTail test (c :: s) = (test (c :: s) || anyTail test s) := by
  rw [anyTail, List.tails_cons, List.any_cons]
  rfl

/-- A test for something that starts with a percent sign. -/
def StartsAtPercent (test : List Char → Bool) : Prop :=
  test [] = false ∧ ∀ c s, c ≠ '%' → test (c :: s) = false

theorem startsAtPercent_isBadEscape : StartsAtPercent isBadEscape := by
  refine ⟨rfl, fun c s hc => ?_⟩
  unfold isBadEscape
  split
  · rename_i heq
    exact absurd (List.cons.inj heq).1 hc
  · rename_i heq
    exact absurd (List.cons.inj heq).1 hc
  · rfl

theorem startsAtPercent_isEncodedSeparator : StartsAtPercent isEncodedSeparator := by
  refine ⟨rfl, fun c s hc => ?_⟩
  unfold isEncodedSeparator
  split
  · rename_i heq
    exact absurd (List.cons.inj heq).1 hc
  · rename_i heq
    exact absurd (List.cons.inj heq).1 hc
  · rfl

theorem StartsAtPercent.anyTail_append {test : List Char → Bool} (htest : StartsAtPercent test)
    {s : List Char} (hs : '%' ∉ s) (rest : List Char) :
    anyTail test (s ++ rest) = anyTail test rest := by
  induction s with
  | nil => rfl
  | cons c s ih =>
      have hc : c ≠ '%' := fun heq => hs (heq ▸ .head _)
      rw [List.cons_append, anyTail_cons, htest.2 c _ hc, Bool.false_or]
      exact ih fun hmem => hs (.tail _ hmem)

/-- The two digits of a byte. -/
def escapeOf (byte : UInt8) : List Char :=
  ['%', hexDigit (byte.toNat / 16), hexDigit (byte.toNat % 16)]

theorem hexDigit_ne_percent {n : ℕ} (hn : n < 16) : hexDigit n ≠ '%' := by
  have hall : ∀ n < 16, hexDigit n ≠ '%' := by decide
  exact hall n hn

theorem isHex_hexDigit {n : ℕ} (hn : n < 16) : isHex (hexDigit n) = true := by
  have hall : ∀ n < 16, isHex (hexDigit n) = true := by decide
  exact hall n hn

theorem hexValue_hexDigit {n : ℕ} (hn : n < 16) : hexValue (hexDigit n) = n := by
  have hall : ∀ n < 16, hexValue (hexDigit n) = n := by decide
  exact hall n hn

theorem byte_digits (byte : UInt8) : byte.toNat / 16 < 16 ∧ byte.toNat % 16 < 16 := by
  have hlt := byte.toNat_lt
  omega

/-- A byte that is kept is an ASCII character, and no percent sign. -/
theorem isUnreserved_spec {byte : UInt8} (h : isUnreserved byte = true) :
    byte.toNat < 128 ∧ Char.ofNat byte.toNat ≠ '%' ∧ Char.ofNat byte.toNat ≠ '/' := by
  rw [isUnreserved, Bool.and_eq_true, decide_eq_true_eq] at h
  refine ⟨h.1, fun heq => ?_, fun heq => ?_⟩
  · rw [heq] at h
    exact absurd h.2 (by decide)
  · rw [heq] at h
    exact absurd h.2 (by decide)

/-- What is found in a quoted text is found after it, if no escape of it is found. -/
theorem StartsAtPercent.anyTail_quoted {test : List Char → Bool} (htest : StartsAtPercent test)
    {bytes : List UInt8} (rest : List Char)
    (hescape : ∀ byte ∈ bytes, ∀ s, test (escapeOf byte ++ s) = false) :
    anyTail test (bytes.flatMap quoteByte ++ rest) = anyTail test rest := by
  induction bytes with
  | nil => rfl
  | cons byte bytes ih =>
      have hrest := ih fun b hb => hescape b (.tail _ hb)
      rw [List.flatMap_cons, List.append_assoc, quoteByte]
      split
      · rename_i hkept
        have hnot : '%' ∉ [Char.ofNat byte.toNat] := fun hmem =>
          (isUnreserved_spec hkept).2.1 (List.mem_singleton.1 hmem).symm
        rw [htest.anyTail_append hnot, hrest]
      · -- the escape is not found, and neither of its digits starts anything
        have hdigits : '%' ∉ [hexDigit (byte.toNat / 16), hexDigit (byte.toNat % 16)] := by
          obtain ⟨hhigh, hlow⟩ := byte_digits byte
          simp only [List.mem_cons, List.not_mem_nil, or_false, not_or]
          exact ⟨(hexDigit_ne_percent hhigh).symm, (hexDigit_ne_percent hlow).symm⟩
        have htail := htest.anyTail_append hdigits (bytes.flatMap quoteByte ++ rest)
        have hhead := hescape byte (.head _) (bytes.flatMap quoteByte ++ rest)
        rw [escapeOf] at hhead
        rw [List.cons_append, anyTail_cons]
        rw [List.cons_append] at hhead
        rw [hhead, Bool.false_or, htail, hrest]

theorem isBadEscape_escapeOf (byte : UInt8) (s : List Char) :
    isBadEscape (escapeOf byte ++ s) = false := by
  obtain ⟨hhigh, hlow⟩ := byte_digits byte
  simp only [escapeOf, List.cons_append, List.nil_append, isBadEscape, isHex_hexDigit hhigh,
    isHex_hexDigit hlow, Bool.and_self, Bool.not_true]

/-- Only the escapes of the two separators are encoded separators. -/
theorem isEncodedSeparator_escapeOf {byte : UInt8} (hslash : byte ≠ 0x2F) (hback : byte ≠ 0x5C)
    (s : List Char) : isEncodedSeparator (escapeOf byte ++ s) = false := by
  have hall : ∀ n < 16, ∀ m < 16,
      ¬(hexDigit n = '2' ∧ (hexDigit m).toLower = 'f' ∧ 16 * n + m ≠ 0x2F) ∧
      ¬(hexDigit n = '5' ∧ (hexDigit m).toLower = 'c' ∧ 16 * n + m ≠ 0x5C) := by decide
  obtain ⟨hhigh, hlow⟩ := byte_digits byte
  obtain ⟨htwo, hfive⟩ := hall _ hhigh _ hlow
  have hsum : 16 * (byte.toNat / 16) + byte.toNat % 16 = byte.toNat := Nat.div_add_mod _ _
  have hne : byte.toNat ≠ 0x2F ∧ byte.toNat ≠ 0x5C :=
    ⟨fun heq => hslash (UInt8.toNat_inj.1 heq), fun heq => hback (UInt8.toNat_inj.1 heq)⟩
  rw [hsum] at htwo hfive
  simp only [escapeOf, List.cons_append, List.nil_append]
  unfold isEncodedSeparator
  split
  · rename_i heq
    obtain ⟨-, heq⟩ := List.cons.inj heq
    obtain ⟨hdigit, heq⟩ := List.cons.inj heq
    obtain ⟨rfl, -⟩ := List.cons.inj heq
    exact decide_eq_false fun hf => htwo ⟨hdigit, hf, hne.1⟩
  · rename_i heq
    obtain ⟨-, heq⟩ := List.cons.inj heq
    obtain ⟨hdigit, heq⟩ := List.cons.inj heq
    obtain ⟨rfl, -⟩ := List.cons.inj heq
    exact decide_eq_false fun hc => hfive ⟨hdigit, hc, hne.2⟩
  · rfl

/-- The UTF-8 of an ASCII character. -/
theorem utf8EncodeChar_ofNat {n : ℕ} (hn : n < 128) :
    String.utf8EncodeChar (Char.ofNat n) = [UInt8.ofNat n] := by
  have hall : ∀ n < 128, String.utf8EncodeChar (Char.ofNat n) = [UInt8.ofNat n] := by decide
  exact hall n hn

/-- Unquoting takes a quoted text back. -/
theorem unquoteToBytes_quoted (bytes : List UInt8) :
    unquoteToBytes (bytes.flatMap quoteByte) = bytes := by
  induction bytes with
  | nil =>
      rw [List.flatMap_nil]
      simp [unquoteToBytes]
  | cons byte bytes ih =>
      rw [List.flatMap_cons, quoteByte]
      split
      · rename_i hkept
        obtain ⟨hlt, hpercent, -⟩ := isUnreserved_spec hkept
        have hbyte : String.utf8EncodeChar (Char.ofNat byte.toNat) = [byte] := by
          rw [utf8EncodeChar_ofNat hlt, UInt8.ofNat_toNat]
        have hplain : unquoteToBytes (Char.ofNat byte.toNat :: bytes.flatMap quoteByte) =
            String.utf8EncodeChar (Char.ofNat byte.toNat) ++
              unquoteToBytes (bytes.flatMap quoteByte) := by
          rw [unquoteToBytes]
          intro a b rest hc
          exact absurd hc hpercent
        rw [List.cons_append, List.nil_append, hplain, hbyte, ih]
        rfl
      · obtain ⟨hhigh, hlow⟩ := byte_digits byte
        have hsum : 16 * (byte.toNat / 16) + byte.toNat % 16 = byte.toNat := Nat.div_add_mod _ _
        simp only [List.cons_append, List.nil_append, unquoteToBytes, isHex_hexDigit hhigh,
          isHex_hexDigit hlow, Bool.and_self, if_true, hexValue_hexDigit hhigh,
          hexValue_hexDigit hlow, hsum, UInt8.ofNat_toNat, ih]

theorem unquoteToBytes_ne_nil {segment : List Char} (h : segment ≠ []) :
    unquoteToBytes segment ≠ [] := by
  cases segment with
  | nil => exact absurd rfl h
  | cons c segment =>
      rw [unquoteToBytes.eq_def]
      split
      · split
        · exact List.cons_ne_nil _ _
        · exact List.cons_ne_nil _ _
      · exact List.append_ne_nil_of_left_ne_nil String.utf8EncodeChar_ne_nil _
      · rename_i heq
        cases heq

/-! ## UTF-8 -/

private theorem utf8Encode_eq (text : List Char) :
    (⟨(text.flatMap String.utf8EncodeChar).toArray⟩ : ByteArray) = text.utf8Encode := by
  rw [← List.data_toByteArray]
  rfl

/-- Decoding takes an encoded text back. -/
theorem decodeUtf8_encode (text : List Char) :
    decodeUtf8 (text.flatMap String.utf8EncodeChar) = some text := by
  have hvalid : text.utf8Encode.IsValidUTF8 := ByteArray.isValidUTF8_utf8Encode
  rw [decodeUtf8, utf8Encode_eq, String.fromUTF8?, dif_pos hvalid, Option.map_some]
  exact congrArg some String.toList_ofList

/-- Only no bytes decode to the empty text. -/
theorem eq_nil_of_decodeUtf8 {bytes : List UInt8} (h : decodeUtf8 bytes = some []) :
    bytes = [] := by
  unfold decodeUtf8 String.fromUTF8? at h
  split at h
  · rw [Option.map_some, Option.some.injEq] at h
    have hempty := String.toList_injective (h.trans String.toList_empty.symm)
    have hbytes : (⟨bytes.toArray⟩ : ByteArray) = ByteArray.empty :=
      congrArg String.toByteArray hempty
    simpa using congrArg (fun b : ByteArray => b.data.toList) hbytes
  · cases h

/-- A byte below 128 in an encoded text is a character of it. -/
theorem mem_of_mem_encode {text : List Char} {byte : UInt8} (hbyte : byte.toNat < 128)
    (h : byte ∈ text.flatMap String.utf8EncodeChar) : Char.ofNat byte.toNat ∈ text := by
  obtain ⟨c, hc, hmem⟩ := List.mem_flatMap.1 h
  -- a byte of a longer encoding is at least 128
  have hlong : ∀ n : ℕ, 128 ≤ n → n < 256 → byte ≠ UInt8.ofNat n := by
    rintro n hn hlt rfl
    rw [UInt8.toNat_ofNat_of_lt' (by omega)] at hbyte
    omega
  unfold String.utf8EncodeChar at hmem
  dsimp only at hmem
  split at hmem
  · rename_i hascii
    rw [List.mem_singleton.1 hmem,
      UInt8.toNat_ofNat_of_lt' (Nat.lt_of_le_of_lt hascii (by decide))]
    rwa [show c.val.toNat = c.toNat from rfl, Char.ofNat_toNat]
  · split at hmem
    · simp only [List.mem_cons, List.not_mem_nil, or_false] at hmem
      rcases hmem with hmem | hmem
      · exact absurd hmem (hlong _ (by omega) (by omega))
      · exact absurd hmem (hlong _ (by omega) (by omega))
    · split at hmem
      · simp only [List.mem_cons, List.not_mem_nil, or_false] at hmem
        rcases hmem with hmem | hmem | hmem
        · exact absurd hmem (hlong _ (by omega) (by omega))
        · exact absurd hmem (hlong _ (by omega) (by omega))
        · exact absurd hmem (hlong _ (by omega) (by omega))
      · simp only [List.mem_cons, List.not_mem_nil, or_false] at hmem
        rcases hmem with hmem | hmem | hmem | hmem
        · exact absurd hmem (hlong _ (by omega) (by omega))
        · exact absurd hmem (hlong _ (by omega) (by omega))
        · exact absurd hmem (hlong _ (by omega) (by omega))
        · exact absurd hmem (hlong _ (by omega) (by omega))

/-! ## Segments -/

/-- A segment that is safe. -/
structure IsSegment (unicode : UnicodeData) (segment : List Char) : Prop where
  nonempty : segment ≠ []
  nfc : unicode.nfc segment = segment
  notDot : segment ≠ ['.']
  notDots : segment ≠ ['.', '.']
  noSlash : '/' ∉ segment
  noBackslash : '\\' ∉ segment
  noControl : ∀ c ∈ segment, isControl c = false

variable {segment : List Char} {segments : List (List Char)} {root : List Char}

theorem quote_ne_nil (h : segment ≠ []) : quote segment ≠ [] := by
  cases segment with
  | nil => exact absurd rfl h
  | cons c segment =>
      cases hbytes : String.utf8EncodeChar c with
      | nil => exact absurd hbytes String.utf8EncodeChar_ne_nil
      | cons byte bytes =>
          rw [quote, List.flatMap_cons, hbytes, List.cons_append, List.flatMap_cons, quoteByte]
          split
          · exact List.cons_ne_nil _ _
          · exact List.cons_ne_nil _ _

/-- What a quoted text is made of. -/
def isQuoteChar (c : Char) : Bool :=
  c.isAlphanum || c = '-' || c = '.' || c = '_' || c = '~' || c = '%'

theorem quote_chars {c : Char} (h : c ∈ quote segment) : isQuoteChar c = true := by
  obtain ⟨byte, -, hbyte⟩ := List.mem_flatMap.1 h
  rw [quoteByte] at hbyte
  split at hbyte
  · rename_i hkept
    rw [isUnreserved, Bool.and_eq_true] at hkept
    rw [List.mem_singleton.1 hbyte, isQuoteChar, hkept.2, Bool.true_or]
  · have hall : ∀ n < 16, isQuoteChar (hexDigit n) = true := by decide
    obtain ⟨hhigh, hlow⟩ := byte_digits byte
    simp only [List.mem_cons, List.not_mem_nil, or_false] at hbyte
    rcases hbyte with rfl | rfl | rfl
    · decide
    · exact hall _ hhigh
    · exact hall _ hlow

/-- A character that is never quoted, nor kept. -/
theorem not_mem_quote {c : Char} (hc : isQuoteChar c = false) : c ∉ quote segment := by
  intro h
  rw [quote_chars h] at hc
  cases hc

/-- A safe segment is read as it was quoted. -/
theorem decodeSegment_quote (h : IsSegment unicode segment) :
    decodeSegment unicode (quote segment) = some segment := by
  have hescapes : anyTail isBadEscape (quote segment) = false := by
    have hquoted : anyTail isBadEscape (quote segment ++ []) = anyTail isBadEscape [] :=
      startsAtPercent_isBadEscape.anyTail_quoted [] fun byte _ s => isBadEscape_escapeOf byte s
    rw [List.append_nil] at hquoted
    exact hquoted
  have hdecoded : decodeUtf8 (unquoteToBytes (quote segment)) = some segment := by
    rw [quote, unquoteToBytes_quoted, decodeUtf8_encode]
  have hcontrol : segment.any isControl = false :=
    List.any_eq_false.2 fun c hc => by rw [h.noControl c hc]; exact Bool.false_ne_true
  rw [decodeSegment, if_neg (by rw [hescapes]; exact Bool.false_ne_true), hdecoded]
  refine if_neg ?_
  simp only [h.nfc, h.notDot, h.notDots, h.noSlash, h.noBackslash, hcontrol, ne_eq,
    not_true_eq_false, Bool.false_eq_true, or_self, not_false_eq_true]

/-- What is read as a segment is safe. -/
theorem isSegment_of_decodeSegment {raw : List Char} (hraw : raw ≠ [])
    (h : decodeSegment unicode raw = some segment) : IsSegment unicode segment := by
  unfold decodeSegment at h
  split_ifs at h
  split at h
  · cases h
  · rename_i decoded hdecoded
    split_ifs at h with hsafe
    obtain rfl := Option.some.inj h
    simp only [not_or, Decidable.not_not, Bool.not_eq_true] at hsafe
    obtain ⟨hnfc, hdot, hdots, hslash, hback, hcontrol⟩ := hsafe
    refine ⟨?_, hnfc, hdot, hdots, hslash, hback, fun c hc => ?_⟩
    · rintro rfl
      exact unquoteToBytes_ne_nil hraw (eq_nil_of_decodeUtf8 hdecoded)
    · simpa using List.any_eq_false.1 hcontrol c hc

/-! ## URIs -/

/-- `CortexResourceURI` -/
structure CortexResourceUri where
  value : List Char
  root : List Char
  segments : List (List Char)
  deriving DecidableEq

/-- `parse_resource_uri`; nothing where it raises. -/
def parseCortexResource (unicode : UnicodeData) (ip : IpCheck) (value : List Char) :
    Option CortexResourceUri :=
  (parseResourceUri unicode ip value).map fun segments =>
    ⟨value, (cut '/' (value.drop cortexScheme.length)).1, segments⟩

/-- A root with safe segments below it. -/
structure Resource (unicode : UnicodeData) where
  root : List Char
  segments : List (List Char)
  rooted : isRoot root = true
  nonempty : segments ≠ []
  safe : ∀ segment ∈ segments, IsSegment unicode segment

/-- The path of percent-encoded segments. -/
def quotedPath (segments : List (List Char)) : List Char :=
  segments.flatMap fun segment => '/' :: quote segment

/-- The canonical form of a resource. -/
def Resource.uri (r : Resource unicode) : List Char :=
  cortexScheme ++ r.root ++ quotedPath r.segments

private theorem intercalate_quote (first : List Char) :
    ['/'].intercalate (first :: segments.map quote) = first ++ quotedPath segments := by
  induction segments generalizing first with
  | nil => simp [quotedPath]
  | cons segment segments ih =>
      rw [List.map_cons, List.intercalate_cons_cons, ih]
      simp [quotedPath]

/-- The segments of a path are split as they were joined. -/
theorem splitOn_quotedPath :
    ((quotedPath segments).splitOn '/').drop 1 = segments.map quote := by
  have hjoined : quotedPath segments = ['/'].intercalate ([] :: segments.map quote) :=
    (intercalate_quote []).symm
  rw [hjoined, List.splitOn_intercalate '/' ?_ (List.cons_ne_nil _ _)]
  · rfl
  · intro s hs
    rcases List.mem_cons.1 hs with rfl | hs
    · exact List.not_mem_nil
    · obtain ⟨segment, -, rfl⟩ := List.mem_map.1 hs
      exact not_mem_quote (by decide)

theorem mapM_decodeSegment (h : ∀ segment ∈ segments, IsSegment unicode segment) :
    (segments.map quote).mapM (decodeSegment unicode) = some segments := by
  induction segments with
  | nil => rfl
  | cons segment segments ih =>
      rw [List.map_cons, List.mapM_cons, decodeSegment_quote (h segment (.head _)),
        ih fun s hs => h s (.tail _ hs)]
      rfl

/-- No separator is encoded in the path of safe segments. -/
theorem anyTail_quotedPath (h : ∀ segment ∈ segments, IsSegment unicode segment) :
    anyTail isEncodedSeparator (quotedPath segments) = false := by
  induction segments with
  | nil => rfl
  | cons segment segments ih =>
      have hsegment := h segment (.head _)
      have hslash : '%' ∉ ['/'] := by decide
      have hquoted : anyTail isEncodedSeparator (quote segment ++ quotedPath segments) =
          anyTail isEncodedSeparator (quotedPath segments) := by
        refine startsAtPercent_isEncodedSeparator.anyTail_quoted _ fun byte hbyte s => ?_
        refine isEncodedSeparator_escapeOf ?_ ?_ s
        · rintro rfl
          exact hsegment.noSlash (mem_of_mem_encode (by decide) hbyte)
        · rintro rfl
          exact hsegment.noBackslash (mem_of_mem_encode (by decide) hbyte)
      have hhead := startsAtPercent_isEncodedSeparator.anyTail_append hslash
        (quote segment ++ quotedPath segments)
      exact hhead.trans (hquoted.trans (ih fun s hs => h s (.tail _ hs)))

/-! ## Parsing a URI -/

/-- The characters of a root. -/
theorem isRoot_chars (h : isRoot root = true) :
    root ≠ [] ∧ ∀ c ∈ root, c.isLower = true ∨ c.isDigit = true ∨ c = '-' := by
  unfold isRoot at h
  split at h
  · rename_i first rest
    simp only [Bool.and_eq_true, Bool.or_eq_true, decide_eq_true_eq, List.all_eq_true] at h
    refine ⟨List.cons_ne_nil _ _, fun c hc => ?_⟩
    rcases List.mem_cons.1 hc with rfl | hc
    · exact .inl h.1.1
    · exact (or_assoc.1 (h.2 c hc))
  · cases h

/-- What is no letter, digit or hyphen is not in a root. -/
theorem not_mem_root (h : isRoot root = true) {c : Char} (hlower : c.isLower = false)
    (hdigit : c.isDigit = false) (hhyphen : c ≠ '-') : c ∉ root := by
  intro hc
  rcases (isRoot_chars h).2 c hc with hc | hc | hc
  · rw [hlower] at hc
    cases hc
  · rw [hdigit] at hc
    cases hc
  · exact hhyphen hc

theorem le_of_isLower {c : Char} (h : c.isLower = true) : 97 ≤ c.toNat := by
  have hbounds : (decide (c.val ≥ 'a'.val) && decide (c.val ≤ 'z'.val)) = true := h
  rw [Bool.and_eq_true, decide_eq_true_eq, ge_iff_le, UInt32.le_iff_toNat_le] at hbounds
  exact hbounds.1

theorem lower_root (h : isRoot root = true) : lower root = root := by
  refine (List.map_congr_left fun c hc => ?_).trans (List.map_id root)
  have hnot : ¬(65 ≤ c.toNat ∧ c.toNat ≤ 90) := by
    rcases (isRoot_chars h).2 c hc with hc | hc | rfl
    · have hbound := le_of_isLower hc
      omega
    · have hbounds := isDigit_iff.1 hc
      omega
    · decide
  rw [id, ← Char.toNat_inj, toNat_toLower, if_neg hnot]

theorem quotedPath_printable : Printable (quotedPath segments) := by
  intro c hc
  obtain ⟨segment, -, hc⟩ := List.mem_flatMap.1 hc
  rcases List.mem_cons.1 hc with rfl | hc
  · decide
  · obtain ⟨byte, -, hc⟩ := List.mem_flatMap.1 hc
    exact quoteByte_printable byte c hc

/-- A path has no query and no fragment. -/
theorem not_mem_quotedPath {c : Char} (hslash : c ≠ '/') (hc : isQuoteChar c = false) :
    c ∉ quotedPath segments := by
  intro h
  obtain ⟨segment, -, h⟩ := List.mem_flatMap.1 h
  rcases List.mem_cons.1 h with h | h
  · exact hslash h
  · exact not_mem_quote hc h

namespace Resource

variable (r : Resource unicode)

theorem uri_eq_join : r.uri = join "cortex".toList r.root (quotedPath r.segments) [] := by
  rw [join, if_pos rfl, List.append_nil, uri, List.append_assoc]
  rfl

theorem urlsplit_uri : urlsplit ip r.uri =
    some ⟨"cortex".toList, r.root, quotedPath r.segments, [], []⟩ := by
  have hprintable : Printable r.uri :=
    ((printable_of_all (by decide)).append (isRoot_printable r.rooted)).append quotedPath_printable
  have hbrackets : bracketsOk ip r.root = true := by
    have hopen : '[' ∉ r.root := not_mem_root r.rooted (by decide) (by decide) (by decide)
    have hclose : ']' ∉ r.root := not_mem_root r.rooted (by decide) (by decide) (by decide)
    rw [bracketsOk, if_neg hopen, decide_eq_true hclose]
  have hnetloc : ip.checkNetloc r.root = true :=
    ip.ascii r.root fun c hc => lt_trans (isRoot_printable r.rooted c hc).2 (by decide)
  have habsolute : (quotedPath r.segments).head? = some '/' := by
    cases hsegments : r.segments with
    | nil => exact absurd hsegments r.nonempty
    | cons segment segments => rfl
  have hundelimited : ∀ c ∈ r.root, isDelimiter c = false := by
    intro c hc
    have hnot : ∀ d : Char, d.isLower = false → d.isDigit = false → d ≠ '-' → c ≠ d := by
      rintro d hlower hdigit hhyphen rfl
      exact not_mem_root r.rooted hlower hdigit hhyphen hc
    simp only [isDelimiter, hnot '/' (by decide) (by decide) (by decide),
      hnot '?' (by decide) (by decide) (by decide), hnot '#' (by decide) (by decide) (by decide),
      decide_false, Bool.or_self]
  have hparts : Parts "cortex".toList r.root (quotedPath r.segments) [] :=
    { lowerScheme := ⟨rfl, rfl, rfl⟩
      undelimited := hundelimited
      absolute := ⟨habsolute, not_mem_quotedPath (by decide) (by decide),
        not_mem_quotedPath (by decide) (by decide)⟩
      unhashed := List.not_mem_nil
      printable := fun c hc => (hprintable c (r.uri_eq_join ▸ hc)).1 }
  rw [uri_eq_join, urlsplit_join hparts, if_pos ⟨hbrackets, hnetloc⟩]

theorem quotedPath_cons : ∃ path, quotedPath r.segments = '/' :: path := by
  cases hsegments : r.segments with
  | nil => exact absurd hsegments r.nonempty
  | cons segment segments => exact ⟨_, rfl⟩

theorem drop_uri : r.uri.drop cortexScheme.length = r.root ++ quotedPath r.segments := by
  rw [uri, List.append_assoc, List.drop_left]

/-- The authority of a URI is its root. -/
theorem cut_uri : (cut '/' (r.uri.drop cortexScheme.length)).1 = r.root := by
  have hslash : '/' ∉ r.root := not_mem_root r.rooted (by decide) (by decide) (by decide)
  obtain ⟨path, hpath⟩ := r.quotedPath_cons
  rw [drop_uri, hpath, cut_append hslash]

theorem anyTail_uri : anyTail isEncodedSeparator r.uri = false := by
  have hscheme : '%' ∉ cortexScheme := by decide
  have hroot : '%' ∉ r.root := not_mem_root r.rooted (by decide) (by decide) (by decide)
  have htest := startsAtPercent_isEncodedSeparator
  rw [uri, List.append_assoc, htest.anyTail_append hscheme, htest.anyTail_append hroot,
    anyTail_quotedPath r.safe]

theorem hostinfo_root : hostinfo r.root = (r.root, []) := by
  have hcolon : ':' ∉ r.root := not_mem_root r.rooted (by decide) (by decide) (by decide)
  have hat : '@' ∉ r.root := not_mem_root r.rooted (by decide) (by decide) (by decide)
  have hopen : '[' ∉ r.root := not_mem_root r.rooted (by decide) (by decide) (by decide)
  rw [hostinfo, afterLast_of_not_mem hat, if_neg hopen, cut_of_not_mem hcolon]

/-- The URI of a resource is read as its segments. -/
theorem parseResourceUri_uri : parseResourceUri unicode ip r.uri = some r.segments := by
  have hform : ¬(¬cortexScheme.isPrefixOf r.uri ∨ anyTail isEncodedSeparator r.uri ∨
      '/' ∉ r.uri.drop cortexScheme.length ∨ ¬isRoot r.root) := by
    have hscheme : cortexScheme.isPrefixOf r.uri = true := by
      rw [uri, List.append_assoc]
      exact List.isPrefixOf_iff_prefix.2 (List.prefix_append _ _)
    have hslash : '/' ∈ r.uri.drop cortexScheme.length := by
      obtain ⟨path, hpath⟩ := r.quotedPath_cons
      rw [drop_uri, hpath]
      exact List.mem_append_right _ (.head _)
    simp only [hscheme, r.anyTail_uri, hslash, r.rooted, not_true_eq_false, Bool.false_eq_true,
      or_self, not_false_eq_true]
  have hat : '@' ∉ r.root := not_mem_root r.rooted (by decide) (by decide) (by decide)
  have hpercent : '%' ∉ r.root := not_mem_root r.rooted (by decide) (by decide) (by decide)
  have hport : (SplitResult.mk "cortex".toList r.root (quotedPath r.segments) [] []).port =
      some none := by
    rw [SplitResult.port, hostinfo_root]
  have hhost : (SplitResult.mk "cortex".toList r.root (quotedPath r.segments) [] []).hostname =
      r.root := by
    have hzone : r.root.dropWhile (fun c => decide (c ≠ '%')) = [] :=
      List.dropWhile_eq_nil_iff.2 fun c hc => decide_eq_true fun heq => hpercent (heq ▸ hc)
    rw [SplitResult.hostname, hostinfo_root, cut_of_not_mem hpercent, hzone, List.append_nil,
      lower_root r.rooted]
  have hsegments : ¬(r.segments.map quote = [] ∨ [] ∈ r.segments.map quote) := by
    rintro (hnil | hmem)
    · exact r.nonempty (List.map_eq_nil_iff.1 hnil)
    · obtain ⟨segment, hsegment, hnil⟩ := List.mem_map.1 hmem
      exact quote_ne_nil (r.safe segment hsegment).nonempty hnil
  rw [parseResourceUri, r.cut_uri, if_neg hform, r.urlsplit_uri]
  dsimp only
  rw [hport, hhost, if_neg (by simp [hat]), splitOn_quotedPath, if_neg hsegments,
    mapM_decodeSegment r.safe]
  exact if_pos rfl

/-- The URI of a resource is accepted, and names the resource. -/
theorem parse_uri : parseCortexResource unicode ip r.uri = some ⟨r.uri, r.root, r.segments⟩ := by
  rw [parseCortexResource, parseResourceUri_uri, Option.map_some, cut_uri]

end Resource

theorem mapM_decodeSegment_safe {raws : List (List Char)} (hraws : [] ∉ raws)
    (h : raws.mapM (decodeSegment unicode) = some segments) :
    segments.length = raws.length ∧ ∀ segment ∈ segments, IsSegment unicode segment := by
  induction raws generalizing segments with
  | nil =>
      cases h
      exact ⟨rfl, fun _ h => (List.not_mem_nil h).elim⟩
  | cons raw raws ih =>
      rw [List.mapM_cons] at h
      obtain ⟨first, hfirst, h⟩ := Option.bind_eq_some_iff.1 h
      obtain ⟨rest, hrest, heq⟩ := Option.bind_eq_some_iff.1 h
      cases heq
      obtain ⟨hlength, hsafe⟩ := ih (fun hmem => hraws (.tail _ hmem)) hrest
      refine ⟨congrArg Nat.succ hlength, fun segment hsegment => ?_⟩
      rcases List.mem_cons.1 hsegment with rfl | hsegment
      · exact isSegment_of_decodeSegment (fun heq => hraws (heq ▸ .head _)) hfirst
      · exact hsafe segment hsegment

/-- What is accepted is the URI of a resource. -/
theorem exists_resource {value : List Char} {parsed : CortexResourceUri}
    (h : parseCortexResource unicode ip value = some parsed) :
    ∃ r : Resource unicode, value = r.uri ∧ parsed = ⟨value, r.root, r.segments⟩ := by
  obtain ⟨segments, hparse, rfl⟩ := Option.map_eq_some_iff.1 h
  simp only [parseResourceUri] at hparse
  split_ifs at hparse with hform
  simp only [not_or, Decidable.not_not] at hform
  split at hparse
  · cases hparse
  · split_ifs at hparse with hparts hsegments
    rw [not_or] at hsegments
    split at hparse
    · cases hparse
    · rename_i decoded hdecoded
      split_ifs at hparse with hvalue
      obtain rfl := Option.some.inj hparse
      obtain ⟨hlength, hsafe⟩ := mapM_decodeSegment_safe hsegments.2 hdecoded
      refine ⟨⟨_, decoded, hform.2.2.2, ?_, hsafe⟩, hvalue, rfl⟩
      rintro rfl
      exact hsegments.1 (List.eq_nil_of_length_eq_zero hlength.symm)

/-- Resources and the accepted URIs are in bijection: each resource is read back from its URI,
nothing else is accepted, and two accepted texts that name the same resource are equal. -/
theorem resource_uri_bijection (unicode : UnicodeData) (ip : IpCheck) :
    (∀ r : Resource unicode,
      parseCortexResource unicode ip r.uri = some ⟨r.uri, r.root, r.segments⟩) ∧
    (∀ value parsed, parseCortexResource unicode ip value = some parsed →
      ∃ r : Resource unicode, value = r.uri ∧ parsed = ⟨value, r.root, r.segments⟩) ∧
    ∀ value value' parsed parsed', parseCortexResource unicode ip value = some parsed →
      parseCortexResource unicode ip value' = some parsed' → parsed.root = parsed'.root →
      parsed.segments = parsed'.segments → value = value' := by
  refine ⟨fun r => r.parse_uri, fun value parsed h => exists_resource h,
    fun value value' parsed parsed' h h' hroot hsegments => ?_⟩
  obtain ⟨r, rfl, rfl⟩ := exists_resource h
  obtain ⟨r', rfl, rfl⟩ := exists_resource h'
  rw [Resource.uri, Resource.uri, show r.root = r'.root from hroot,
    show r.segments = r'.segments from hsegments]

/-- A note with a percent sign and a question mark in its name. -/
def percentNote : Resource asciiData where
  root := "corpus".toList
  segments := ["100%".toList, "why?.md".toList]
  rooted := by decide
  nonempty := by decide
  safe segment h := by
    have hcontrol : ∀ text ∈ ["100%".toList, "why?.md".toList],
        (text.all fun c => !isControl c) = true := by decide
    have hnone : ∀ c ∈ segment, isControl c = false := fun c hc =>
      (Bool.not_eq_true' _).mp (List.all_eq_true.1 (hcontrol segment h) c hc)
    simp only [List.mem_cons, List.not_mem_nil, or_false] at h
    rcases h with rfl | rfl
    · exact ⟨by decide, rfl, by decide, by decide, by decide, by decide, hnone⟩
    · exact ⟨by decide, rfl, by decide, by decide, by decide, by decide, hnone⟩

theorem resource_uri_bijection_percent :
    percentNote.uri = "cortex://corpus/100%25/why%3F.md".toList ∧
      parseCortexResource asciiData noAddress percentNote.uri =
        some ⟨percentNote.uri, percentNote.root, percentNote.segments⟩ :=
  ⟨by decide, (resource_uri_bijection asciiData noAddress).1 percentNote⟩

end Cortex.Sources
