import Cortex.Library.PyValue

/-!
# The bytes of a JSON document

How `json.loads` turns bytes into code points: the encoding is guessed from the
first bytes, and a surrogate that is encoded by itself is let through
(`surrogatepass`).  Bytes of ASCII are themselves.
-/

namespace Cortex.PyJson

open Py

abbrev Bytes := List UInt8

inductive Encoding
  | utf8
  /-- Without the byte order mark in front. -/
  | utf8Sig
  | utf16 (bigEndian : Bool)
  | utf32 (bigEndian : Bool)
  deriving DecidableEq

/-- The encoding of a text without a byte order mark, from its zero bytes. -/
def plainEncoding : Bytes → Encoding
  | a :: b :: c :: d :: _ =>
      if a = 0 then if b = 0 then .utf32 true else .utf16 true
      else if b = 0 then if c = 0 ∧ d = 0 then .utf32 false else .utf16 false
      else .utf8
  | [a, b] => if a = 0 then .utf16 true else if b = 0 then .utf16 false else .utf8
  | _ => .utf8

/-- `json.detect_encoding`, with the text after a byte order mark of UTF-16 or UTF-32. -/
def detectEncoding (bytes : Bytes) : Encoding × Bytes :=
  if [0x00, 0x00, 0xFE, 0xFF].isPrefixOf bytes then (.utf32 true, bytes.drop 4)
  else if [0xFF, 0xFE, 0x00, 0x00].isPrefixOf bytes then (.utf32 false, bytes.drop 4)
  else if [0xFE, 0xFF].isPrefixOf bytes then (.utf16 true, bytes.drop 2)
  else if [0xFF, 0xFE].isPrefixOf bytes then (.utf16 false, bytes.drop 2)
  else if [0xEF, 0xBB, 0xBF].isPrefixOf bytes then (.utf8Sig, bytes)
  else (plainEncoding bytes, bytes)

/-- A code point from its number. -/
def point? (n : ℕ) : Option CodePoint := if h : n < 0x110000 then some ⟨n, h⟩ else none

/-- The payload of a continuation byte. -/
def continuation (b : UInt8) : Option ℕ :=
  if 0x80 ≤ b.toNat ∧ b.toNat < 0xC0 then some (b.toNat - 0x80) else none

/-- UTF-8; three bytes may encode a surrogate. -/
def decodeUtf8 : Bytes → Option Str
  | [] => some []
  | a :: rest =>
      if a.toNat < 0x80 then do
        let c ← point? a.toNat
        let text ← decodeUtf8 rest
        some (c :: text)
      else
        match rest with
        | [] => none
        | b :: rest => do
            let x ← continuation b
            if 0xC2 ≤ a.toNat ∧ a.toNat < 0xE0 then do
              let c ← point? ((a.toNat - 0xC0) * 0x40 + x)
              let text ← decodeUtf8 rest
              some (c :: text)
            else
              match rest with
              | [] => none
              | c :: rest => do
                  let y ← continuation c
                  if 0xE0 ≤ a.toNat ∧ a.toNat < 0xF0 then
                    let n := ((a.toNat - 0xE0) * 0x40 + x) * 0x40 + y
                    if n < 0x800 then none
                    else do
                      let c ← point? n
                      let text ← decodeUtf8 rest
                      some (c :: text)
                  else
                    match rest with
                    | [] => none
                    | d :: rest => do
                        let z ← continuation d
                        let n := (((a.toNat - 0xF0) * 0x40 + x) * 0x40 + y) * 0x40 + z
                        if a.toNat < 0xF0 ∨ n < 0x10000 then none
                        else do
                          let c ← point? n
                          let text ← decodeUtf8 rest
                          some (c :: text)

/-- The units of UTF-16. -/
def utf16Units (bigEndian : Bool) : Bytes → Option (List ℕ)
  | [] => some []
  | [_] => none
  | a :: b :: rest => do
      let units ← utf16Units bigEndian rest
      some ((if bigEndian then a.toNat * 0x100 + b.toNat else b.toNat * 0x100 + a.toNat) :: units)

/-- UTF-16; a surrogate without its pair is a code point. -/
def decodeUnits : List ℕ → Option Str
  | [] => some []
  | [u] => do
      let c ← point? u
      some [c]
  | u :: v :: rest =>
      if 0xD800 ≤ u ∧ u < 0xDC00 ∧ 0xDC00 ≤ v ∧ v < 0xE000 then do
        let c ← point? (0x10000 + (u - 0xD800) * 0x400 + (v - 0xDC00))
        let text ← decodeUnits rest
        some (c :: text)
      else do
        let c ← point? u
        let text ← decodeUnits (v :: rest)
        some (c :: text)

/-- UTF-32; a surrogate is a code point. -/
def decodeUtf32 (bigEndian : Bool) : Bytes → Option Str
  | [] => some []
  | a :: b :: c :: d :: rest => do
      let (a, b, c, d) := if bigEndian then (a, b, c, d) else (d, c, b, a)
      let p ← point? (((a.toNat * 0x100 + b.toNat) * 0x100 + c.toNat) * 0x100 + d.toNat)
      let text ← decodeUtf32 bigEndian rest
      some (p :: text)
  | _ => none

/-- `bytes.decode(detect_encoding(bytes), "surrogatepass")`; nothing where it raises. -/
def decode (bytes : Bytes) : Option Str :=
  match detectEncoding bytes with
  | (.utf8, bytes) => decodeUtf8 bytes
  | (.utf8Sig, bytes) => decodeUtf8 (bytes.drop 3)
  | (.utf16 bigEndian, bytes) => (utf16Units bigEndian bytes).bind decodeUnits
  | (.utf32 bigEndian, bytes) => decodeUtf32 bigEndian bytes

/-! ## ASCII -/

/-- The characters of ASCII but NUL. -/
def Str.IsAscii (text : Str) : Prop := ∀ c ∈ text, 0 < c.val ∧ c.val < 0x80

/-- `text.encode("utf-8")` of a text of ASCII. -/
def encodeAscii (text : Str) : Bytes := text.map fun c => UInt8.ofNat c.val

variable {text : Str}

private theorem toNat_ofNat {n : ℕ} (h : n < 0x80) : (UInt8.ofNat n).toNat = n := by
  rw [UInt8.toNat_ofNat']
  exact Nat.mod_eq_of_lt (h.trans (by decide))

theorem decodeUtf8_ascii (h : Str.IsAscii text) : decodeUtf8 (encodeAscii text) = some text := by
  induction text with
  | nil => rfl
  | cons c text ih =>
      have hc := h c List.mem_cons_self
      have hrest := ih fun d hd => h d (List.mem_cons_of_mem c hd)
      have hpoint : point? c.val = some c := dif_pos c.isLt
      have hcons : encodeAscii (c :: text) = UInt8.ofNat c.val :: encodeAscii text := rfl
      rw [hcons, decodeUtf8.eq_def]
      simp only [toNat_ofNat hc.2, if_pos hc.2, hpoint, hrest, Option.bind_eq_bind,
        Option.bind_some]

/-- A byte of such a text is not zero and starts no byte order mark. -/
private theorem byte_of_mem (h : Str.IsAscii text) {b : UInt8} (hb : b ∈ encodeAscii text) :
    b ≠ 0 ∧ b.toNat < 0x80 := by
  obtain ⟨c, hc, rfl⟩ := List.mem_map.1 hb
  obtain ⟨hpos, hlt⟩ := h c hc
  have hnat := toNat_ofNat hlt
  refine ⟨fun hzero => ?_, hnat.symm ▸ hlt⟩
  rw [hzero] at hnat
  exact absurd hnat (ne_of_lt hpos)

private theorem not_isPrefixOf {a : UInt8} {mark bytes : Bytes}
    (ha : ∀ b ∈ bytes, b ≠ 0 ∧ b.toNat < 0x80) (hmark : a = 0 ∨ 0x80 ≤ a.toNat) :
    (a :: mark).isPrefixOf bytes = false := by
  cases bytes with
  | nil => rfl
  | cons b bytes =>
      obtain ⟨hzero, hlt⟩ := ha b List.mem_cons_self
      have hne : a ≠ b := by
        rintro rfl
        rcases hmark with hmark | hmark
        · exact hzero hmark
        · omega
      simp [List.isPrefixOf, hne]

private theorem plainEncoding_eq {bytes : Bytes} (h : ∀ b ∈ bytes, b ≠ 0 ∧ b.toNat < 0x80) :
    plainEncoding bytes = .utf8 := by
  match bytes with
  | a :: b :: c :: d :: rest =>
      rw [plainEncoding, if_neg (h a (by simp)).1, if_neg (h b (by simp)).1]
  | [a, b] => rw [plainEncoding, if_neg (h a (by simp)).1, if_neg (h b (by simp)).1]
  | [a, b, c] => rfl
  | [a] => rfl
  | [] => rfl

theorem decode_ascii (h : Str.IsAscii text) : decode (encodeAscii text) = some text := by
  have hbytes : ∀ b ∈ encodeAscii text, b ≠ 0 ∧ b.toNat < 0x80 := fun b hb => byte_of_mem h hb
  have hdetect : detectEncoding (encodeAscii text) = (.utf8, encodeAscii text) := by
    have hzero : ∀ mark, ((0x00 : UInt8) :: mark).isPrefixOf (encodeAscii text) = false :=
      fun mark => not_isPrefixOf hbytes (.inl rfl)
    have hhigh : ∀ a mark, 0x80 ≤ UInt8.toNat a →
        (a :: mark).isPrefixOf (encodeAscii text) = false :=
      fun a mark ha => not_isPrefixOf hbytes (.inr ha)
    unfold detectEncoding
    rw [hzero, hhigh 0xFF _ (by decide), hhigh 0xFE _ (by decide), hhigh 0xFF _ (by decide),
      hhigh 0xEF _ (by decide), plainEncoding_eq hbytes]
    rfl
  unfold decode
  rw [hdetect]
  exact decodeUtf8_ascii h

end Cortex.PyJson
