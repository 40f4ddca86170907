import HeaderAudit.Text.Utf8

/-!
# AsciiBytes — where a byte of the encoding is a character

The bytes of a text are cut and compared at bytes below `0x80`.  Such a byte never lies inside of a
longer character, so `exists_of_encodeChars_eq` can carry every such cut back to the text.
-/

namespace HeaderAudit
namespace Utf8

/-- The bytes of characters that stand one behind the other. -/
def encodeChars (cs : List Char) : Bytes :=
  cs.flatMap String.utf8EncodeChar

theorem encodeChars_cons (c : Char) (cs : List Char) :
    encodeChars (c :: cs) = String.utf8EncodeChar c ++ encodeChars cs :=
  List.flatMap_cons

theorem encodeChars_append (cs ds : List Char) :
    encodeChars (cs ++ ds) = encodeChars cs ++ encodeChars ds :=
  List.flatMap_append

theorem encodeChars_inj (cs ds : List Char) : encodeChars cs = encodeChars ds ↔ cs = ds := by
  constructor
  · intro h
    have hscan := congrArg (scan none) h
    simp only [encodeChars, scan_flatMap_utf8EncodeChar] at hscan
    exact List.map_inj_right (fun _ _ hsome => Option.some.inj hsome) |>.1 hscan
  · intro h
    rw [h]

/-! ## One character -/

theorem utf8EncodeChar_of_lt {c : Char} (h : c.toNat < 0x80) :
    String.utf8EncodeChar c = [UInt8.ofNat c.toNat] :=
  if_pos (Nat.le_of_lt_succ h)

theorem le_toNat_ofNat {n : Nat} (hlow : 0x80 ≤ n) (hhigh : n < 256) :
    0x80 ≤ (UInt8.ofNat n).toNat := by
  rwa [toNat_ofNat_of_lt hhigh]

/-- All bytes of a longer character are `0x80` or above, the ones that continue it too. -/
theorem le_of_mem_utf8EncodeChar {c : Char} (h : 0x80 ≤ c.toNat) {b : UInt8}
    (hb : b ∈ String.utf8EncodeChar c) : 0x80 ≤ b.toNat := by
  have hv : c.val.toNat = c.toNat := rfl
  unfold String.utf8EncodeChar at hb
  simp only [hv] at hb
  -- The layouts of two, three and four bytes are left, and all of their bytes have the top bit.
  split at hb
  · omega
  · split at hb
    · simp only [List.mem_cons, List.not_mem_nil, or_false] at hb
      rcases hb with rfl | rfl
      all_goals exact le_toNat_ofNat (by omega) (by omega)
    · split at hb
      · simp only [List.mem_cons, List.not_mem_nil, or_false] at hb
        rcases hb with rfl | rfl | rfl
        all_goals exact le_toNat_ofNat (by omega) (by omega)
      · simp only [List.mem_cons, List.not_mem_nil, or_false] at hb
        rcases hb with rfl | rfl | rfl | rfl
        all_goals exact le_toNat_ofNat (by omega) (by omega)

/-- A byte below `0x80` is the whole of the character it belongs to. -/
theorem utf8EncodeChar_eq_of_mem {c d : Char} (hd : d.toNat < 0x80)
    (h : UInt8.ofNat d.toNat ∈ String.utf8EncodeChar c) : c = d := by
  have hbyte : (UInt8.ofNat d.toNat).toNat = d.toNat := toNat_ofNat_of_lt (by omega)
  by_cases hc : c.toNat < 0x80
  · rw [utf8EncodeChar_of_lt hc, List.mem_singleton] at h
    have hnat := congrArg UInt8.toNat h
    rw [hbyte, toNat_ofNat_of_lt (by omega)] at hnat
    exact Char.ext (UInt32.toNat_inj.1 hnat.symm)
  · have hle := le_of_mem_utf8EncodeChar (Nat.le_of_not_lt hc) h
    omega

/-! ## Cuts -/

/-- Bytes that are cut at an ASCII character belong to a text that can be cut there. -/
theorem exists_of_encodeChars_eq {cs : List Char} {d : Char} {x y : Bytes}
    (hd : d.toNat < 0x80) (h : encodeChars cs = x ++ UInt8.ofNat d.toNat :: y) :
    ∃ us vs, cs = us ++ d :: vs ∧ encodeChars us = x ∧ encodeChars vs = y := by
  induction cs generalizing x with
  | nil => simp [encodeChars] at h
  | cons c cs ih =>
      -- A cut behind all of `c` is a cut of the other characters.
      have hlater (x' : Bytes) (hx : x = String.utf8EncodeChar c ++ x')
          (hrest : encodeChars cs = x' ++ UInt8.ofNat d.toNat :: y) :
          ∃ us vs, c :: cs = us ++ d :: vs ∧ encodeChars us = x ∧ encodeChars vs = y := by
        rcases ih hrest with ⟨us, vs, rfl, rfl, hvs⟩
        exact ⟨c :: us, vs, rfl, by rw [encodeChars_cons, hx], hvs⟩
      have hparts : String.utf8EncodeChar c ++ encodeChars cs = x ++ UInt8.ofNat d.toNat :: y := by
        simpa only [encodeChars_cons] using h
      rcases List.append_eq_append_iff.1 hparts with ⟨x', hx, hrest⟩ | ⟨x', hchar, hrest⟩
      · exact hlater x' hx hrest
      · cases x' with
        | nil =>
            apply hlater []
            · simpa using hchar.symm
            · simpa using hrest.symm
        | cons b x' =>
            -- The cut is inside of `c`, so `c` is the character that is cut at.
            rcases List.cons.inj hrest with ⟨rfl, hy⟩
            have hc : c = d := utf8EncodeChar_eq_of_mem hd (by simp [hchar])
            subst hc
            rw [utf8EncodeChar_of_lt hd] at hchar
            rcases List.append_eq_singleton_iff.1 hchar.symm with ⟨rfl, htail⟩ | ⟨_, htail⟩
            · have hx' : x' = [] := by simpa using htail
              exact ⟨[], cs, rfl, rfl, by simp [hy, hx']⟩
            · cases htail

end Utf8
end HeaderAudit
