import HeaderAudit.Text.Utf8

/-!
# WellFormedText — the bytes that encode a text

Which bytes are a text can be said without a text: they are characters one behind the other, and a
character is a layout of one to four bytes whose free bits make up a value.  This file defines:

* `Utf8.Layout` — the four layouts, with the value of the free bits and the least value that needs
  so many bytes;
* `Utf8.IsCharacter` — a whole layout, no longer than its value needs, whose value is neither a
  surrogate nor beyond the last character;
* `Utf8.WellFormed` — characters and nothing else.

`isCharacter_iff` says that these are the encodings of characters, and `wellFormed_iff` that bytes
are well formed exactly if they encode a text.
-/

namespace HeaderAudit
namespace Utf8

/-! ## Layouts -/

/-- Each byte has its mark above its free bits, which are given as numbers. -/
inductive Layout : Bytes → Nat → Nat → Prop
  | one (a : Nat) (ha : a < 0x80) : Layout [UInt8.ofNat a] a 0
  | two (a b : Nat) (ha : a < 0x20) (hb : b < 0x40) :
      Layout [UInt8.ofNat (a + 0xC0), UInt8.ofNat (b + 0x80)] (a * 0x40 + b) 0x80
  | three (a b c : Nat) (ha : a < 0x10) (hb : b < 0x40) (hc : c < 0x40) :
      Layout [UInt8.ofNat (a + 0xE0), UInt8.ofNat (b + 0x80), UInt8.ofNat (c + 0x80)]
        ((a * 0x40 + b) * 0x40 + c) 0x800
  | four (a b c d : Nat) (ha : a < 0x08) (hb : b < 0x40) (hc : c < 0x40) (hd : d < 0x40) :
      Layout [UInt8.ofNat (a + 0xF0), UInt8.ofNat (b + 0x80), UInt8.ofNat (c + 0x80),
        UInt8.ofNat (d + 0x80)] (((a * 0x40 + b) * 0x40 + c) * 0x40 + d) 0x10000

/-- One character: not in more bytes than it needs, no surrogate, and nothing above `0x10FFFF`. -/
def IsCharacter (bytes : Bytes) : Prop :=
  ∃ value least, Layout bytes value least ∧ least ≤ value ∧
    ¬ (0xD800 ≤ value ∧ value ≤ 0xDFFF) ∧ value ≤ 0x10FFFF

/-- Characters one behind the other, none of them cut off. -/
inductive WellFormed : Bytes → Prop
  | nil : WellFormed []
  | cons {character rest : Bytes} :
      IsCharacter character → WellFormed rest → WellFormed (character ++ rest)

/-! ## Characters -/

variable {bytes : Bytes} {value least : Nat} {c : Char}

theorem exists_char (hsurrogate : ¬ (0xD800 ≤ value ∧ value ≤ 0xDFFF)) (hlast : value ≤ 0x10FFFF) :
    ∃ c : Char, c.toNat = value := by
  have hvalid : value.isValidChar := by
    unfold Nat.isValidChar
    omega
  refine ⟨Char.ofNat value, ?_⟩
  rw [Char.ofNat, dif_pos hvalid]
  rfl

/-- The encoding of a character is the shortest layout for its value. -/
theorem exists_layout_utf8EncodeChar (c : Char) :
    ∃ least, Layout (String.utf8EncodeChar c) c.toNat least ∧ least ≤ c.toNat := by
  have hvalid : c.toNat < 0xD800 ∨ 0xDFFF < c.toNat ∧ c.toNat < 0x110000 := c.valid
  have hv : c.val.toNat = c.toNat := rfl
  unfold String.utf8EncodeChar
  simp only [hv]
  generalize c.toNat = n at hvalid ⊢
  -- The payloads of the bytes are the digits of the value to the base 64.
  split
  · exact ⟨0, .one n (by omega), Nat.zero_le n⟩
  · split
    · have hn : n / 64 % 32 * 0x40 + n % 64 = n := by omega
      have hlayout := Layout.two (n / 64 % 32) (n % 64) (by omega) (by omega)
      rw [hn] at hlayout
      exact ⟨0x80, hlayout, by omega⟩
    · split
      · have hn : (n / 4096 % 16 * 0x40 + n / 64 % 64) * 0x40 + n % 64 = n := by omega
        have hlayout := Layout.three (n / 4096 % 16) (n / 64 % 64) (n % 64) (by omega) (by omega)
          (by omega)
        rw [hn] at hlayout
        exact ⟨0x800, hlayout, by omega⟩
      · have hn : ((n / 262144 % 8 * 0x40 + n / 4096 % 64) * 0x40 + n / 64 % 64) * 0x40 +
            n % 64 = n := by omega
        have hlayout := Layout.four (n / 262144 % 8) (n / 4096 % 64) (n / 64 % 64) (n % 64)
          (by omega) (by omega) (by omega) (by omega)
        rw [hn] at hlayout
        exact ⟨0x10000, hlayout, by omega⟩

/-- Of the layouts for a value only the shortest is its encoding. -/
theorem Layout.eq_utf8EncodeChar (h : Layout bytes value least) (hleast : least ≤ value)
    (hc : c.toNat = value) : bytes = String.utf8EncodeChar c := by
  have hv : c.val.toNat = c.toNat := rfl
  unfold String.utf8EncodeChar
  simp only [hv, hc]
  -- The least value rules out the shorter layouts, and the payloads are read off from the value.
  cases h with
  | one a ha => rw [if_pos (by omega)]
  | two a b ha hb =>
      rw [if_neg (by omega), if_pos (by omega)]
      have hfirst : (a * 0x40 + b) / 64 % 32 = a := by omega
      have hsecond : (a * 0x40 + b) % 64 = b := by omega
      rw [hfirst, hsecond]
  | three a b c ha hb hc =>
      rw [if_neg (by omega), if_neg (by omega), if_pos (by omega)]
      have hfirst : ((a * 0x40 + b) * 0x40 + c) / 4096 % 16 = a := by omega
      have hsecond : ((a * 0x40 + b) * 0x40 + c) / 64 % 64 = b := by omega
      have hthird : ((a * 0x40 + b) * 0x40 + c) % 64 = c := by omega
      rw [hfirst, hsecond, hthird]
  | four a b c d ha hb hc hd =>
      rw [if_neg (by omega), if_neg (by omega), if_neg (by omega)]
      have hfirst : (((a * 0x40 + b) * 0x40 + c) * 0x40 + d) / 262144 % 8 = a := by omega
      have hsecond : (((a * 0x40 + b) * 0x40 + c) * 0x40 + d) / 4096 % 64 = b := by omega
      have hthird : (((a * 0x40 + b) * 0x40 + c) * 0x40 + d) / 64 % 64 = c := by omega
      have hfourth : (((a * 0x40 + b) * 0x40 + c) * 0x40 + d) % 64 = d := by omega
      rw [hfirst, hsecond, hthird, hfourth]

theorem isCharacter_iff : IsCharacter bytes ↔ ∃ c : Char, bytes = String.utf8EncodeChar c := by
  constructor
  · rintro ⟨value, least, hlayout, hleast, hsurrogate, hlast⟩
    rcases exists_char hsurrogate hlast with ⟨c, hc⟩
    exact ⟨c, hlayout.eq_utf8EncodeChar hleast hc⟩
  · rintro ⟨c, rfl⟩
    have hvalid : c.toNat < 0xD800 ∨ 0xDFFF < c.toNat ∧ c.toNat < 0x110000 := c.valid
    rcases exists_layout_utf8EncodeChar c with ⟨least, hlayout, hleast⟩
    exact ⟨c.toNat, least, hlayout, hleast, by omega, by omega⟩

/-! ## Texts -/

theorem wellFormed_encode (s : String) : WellFormed (encode s) := by
  unfold encode
  induction s.toList with
  | nil => exact .nil
  | cons c cs ih =>
      rw [List.flatMap_cons]
      exact .cons (isCharacter_iff.2 ⟨c, rfl⟩) ih

theorem WellFormed.exists_eq_encode (h : WellFormed bytes) : ∃ s, bytes = encode s := by
  induction h with
  | nil => exact ⟨"", rfl⟩
  | cons hcharacter _ ih =>
      rcases isCharacter_iff.1 hcharacter with ⟨c, rfl⟩
      rcases ih with ⟨s, rfl⟩
      exact ⟨String.ofList (c :: s.toList), by simp [encode]⟩

theorem wellFormed_iff : WellFormed bytes ↔ ∃ s, bytes = encode s := by
  refine ⟨WellFormed.exists_eq_encode, ?_⟩
  rintro ⟨s, rfl⟩
  exact wellFormed_encode s

end Utf8
end HeaderAudit
