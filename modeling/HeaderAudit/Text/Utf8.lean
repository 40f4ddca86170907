/-!
# Utf8 — text and the bytes it is stored as

Files, path names and the values of environment variables are bytes; messages, reports and
comparisons are text.  This file defines:

* `encode` — the bytes of a text;
* `decode?` — the text of bytes, refused unless they are exactly the encoding of a text;
* `decodeLossy` — the text to show for bytes that may be anything, with one replacement character
  for every maximal run of bytes that begins a character and cannot finish it.

`decode?_eq_some_iff` says that decoding accepts exactly what encoding produces, and
`decodeLossy_encode` that nothing is replaced in bytes that do encode a text.
-/

namespace HeaderAudit

abbrev Bytes := List UInt8

namespace Utf8

/-! ## Strict decoding -/

def encode (s : String) : Bytes :=
  s.toList.flatMap String.utf8EncodeChar

def decode? (bytes : Bytes) : Option String :=
  String.fromUTF8? bytes.toByteArray

theorem toByteArray_encode (s : String) : (encode s).toByteArray = s.toByteArray := by
  have h : (String.ofList s.toList).toByteArray = s.toList.utf8Encode := String.toByteArray_ofList
  rw [String.ofList_toList] at h
  exact h.symm

theorem decode?_encode (s : String) : decode? (encode s) = some s := by
  have h : s.toByteArray.IsValidUTF8 := s.isValidUTF8
  simp [decode?, toByteArray_encode, String.fromUTF8?, h, String.fromUTF8]

theorem decode?_eq_some_iff {bytes : Bytes} {s : String} :
    decode? bytes = some s ↔ bytes = encode s := by
  constructor
  · intro h
    have h' : bytes.toByteArray = s.toByteArray := by
      unfold decode? String.fromUTF8? at h
      split at h
      · cases h
        rfl
      · cases h
    rw [← toByteArray_encode] at h'
    have := congrArg (fun a => a.data.toList) h'
    simpa using this
  · intro h
    rw [h, decode?_encode]

theorem encode_append (s t : String) : encode (s ++ t) = encode s ++ encode t := by
  simp [encode]

/-! ## Lossy decoding -/

/-- A character that has begun: how many bytes it needs after the next one, the range in which the
next one must lie, and the value collected so far. -/
structure Begun where
  further : Nat
  low : Nat
  high : Nat
  value : Nat
deriving DecidableEq, Repr

/-- What a byte is where a character may begin: a character of its own, the first byte of a longer
one, or a byte with which no character begins.  The narrower ranges after `0xE0`, `0xED`, `0xF0`
and `0xF4` leave out overlong forms, surrogates and values above `0x10FFFF`. -/
def begin (b : UInt8) : List (Option Char) × Option Begun :=
  let n := b.toNat
  if n < 0x80 then ([some (Char.ofNat n)], none)
  else if n < 0xC2 then ([none], none)
  else if n < 0xE0 then ([], some ⟨0, 0x80, 0xBF, n - 0xC0⟩)
  else if n = 0xE0 then ([], some ⟨1, 0xA0, 0xBF, 0⟩)
  else if n = 0xED then ([], some ⟨1, 0x80, 0x9F, 0xD⟩)
  else if n < 0xF0 then ([], some ⟨1, 0x80, 0xBF, n - 0xE0⟩)
  else if n = 0xF0 then ([], some ⟨2, 0x90, 0xBF, 0⟩)
  else if n < 0xF4 then ([], some ⟨2, 0x80, 0xBF, n - 0xF0⟩)
  else if n = 0xF4 then ([], some ⟨2, 0x80, 0x8F, 4⟩)
  else ([none], none)

/-- One byte: what it completes, `none` standing for a broken run, and the character it leaves
begun.  A byte that cannot continue a character ends the broken run before it and is looked at
afresh. -/
def step : Option Begun → UInt8 → List (Option Char) × Option Begun
  | none, b => begin b
  | some p, b =>
      let n := b.toNat
      if p.low ≤ n ∧ n ≤ p.high then
        let value := p.value * 64 + (n - 0x80)
        match p.further with
        | 0 => ([some (Char.ofNat value)], none)
        | k + 1 => ([], some ⟨k, 0x80, 0xBF, value⟩)
      else
        (none :: (begin b).1, (begin b).2)

def scan : Option Begun → Bytes → List (Option Char)
  | none, [] => []
  | some _, [] => [none]
  | state, b :: rest => (step state b).1 ++ scan (step state b).2 rest

def decodeLossy (bytes : Bytes) : String :=
  String.ofList ((scan none bytes).map fun c => c.getD '\uFFFD')

theorem scan_cons (state : Option Begun) (b : UInt8) (rest : Bytes) :
    scan state (b :: rest) = (step state b).1 ++ scan (step state b).2 rest := by
  cases state <;> rfl

theorem scan_begun {b : UInt8} {p : Begun} (rest : Bytes) (h : begin b = ([], some p)) :
    scan none (b :: rest) = scan (some p) rest := by
  simp [scan_cons, step, h]

theorem scan_continue {p : Begun} {b : UInt8} {n k : Nat} (rest : Bytes) (hb : b.toNat = n)
    (hlow : p.low ≤ n) (hhigh : n ≤ p.high) (hk : p.further = k + 1) :
    scan (some p) (b :: rest) =
      scan (some ⟨k, 0x80, 0xBF, p.value * 64 + (n - 0x80)⟩) rest := by
  simp [scan_cons, step, hb, hlow, hhigh, hk]

theorem scan_finish {p : Begun} {b : UInt8} {n : Nat} {c : Char} (rest : Bytes)
    (hb : b.toNat = n) (hlow : p.low ≤ n) (hhigh : n ≤ p.high) (hk : p.further = 0)
    (hc : Char.ofNat (p.value * 64 + (n - 0x80)) = c) :
    scan (some p) (b :: rest) = some c :: scan none rest := by
  simp [scan_cons, step, hb, hlow, hhigh, hk, hc]

theorem toNat_ofNat_of_lt {n : Nat} (h : n < 256) : (UInt8.ofNat n).toNat = n := by
  rw [UInt8.toNat_ofNat']
  exact Nat.mod_eq_of_lt h

/-! ### First bytes

The value is given by its free bits, and `next` is those of the byte behind the first one. -/

theorem begin_two (value : Nat) (hlow : 2 ≤ value) (hhigh : value < 0x20) :
    begin (UInt8.ofNat (value + 0xC0)) = ([], some ⟨0, 0x80, 0xBF, value⟩) := by
  have hb : (UInt8.ofNat (value + 0xC0)).toNat = value + 0xC0 := toNat_ofNat_of_lt (by omega)
  simp only [begin, hb]
  rw [if_neg (by omega), if_neg (by omega), if_pos (by omega), Nat.add_sub_cancel]

/-- After `0xE0` the form must not be overlong, and after `0xED` no surrogate. -/
theorem begin_three (value next : Nat) (hvalue : value < 0x10) (hnext : next < 0x40)
    (hshort : value = 0 → 0x20 ≤ next) (hsurrogate : value = 0xD → next < 0x20) :
    ∃ low high, begin (UInt8.ofNat (value + 0xE0)) = ([], some ⟨1, low, high, value⟩) ∧
      low ≤ next + 0x80 ∧ next + 0x80 ≤ high := by
  have hb : (UInt8.ofNat (value + 0xE0)).toNat = value + 0xE0 := toNat_ofNat_of_lt (by omega)
  simp only [begin, hb]
  rw [if_neg (by omega), if_neg (by omega), if_neg (by omega)]
  -- The two first bytes at the ends leave less room for the second one than those between.
  by_cases hfirst : value = 0
  · subst hfirst
    have hlow := hshort rfl
    exact ⟨0xA0, 0xBF, rfl, by omega, by omega⟩
  · by_cases hlast : value = 0xD
    · subst hlast
      have hhigh := hsurrogate rfl
      exact ⟨0x80, 0x9F, rfl, by omega, by omega⟩
    · rw [if_neg (by omega), if_neg (by omega), if_pos (by omega), Nat.add_sub_cancel]
      exact ⟨0x80, 0xBF, rfl, by omega, by omega⟩

/-- After `0xF0` the form must not be overlong, and after `0xF4` the value must not be too high. -/
theorem begin_four (value next : Nat) (hvalue : value ≤ 4) (hnext : next < 0x40)
    (hshort : value = 0 → 0x10 ≤ next) (hlast : value = 4 → next < 0x10) :
    ∃ low high, begin (UInt8.ofNat (value + 0xF0)) = ([], some ⟨2, low, high, value⟩) ∧
      low ≤ next + 0x80 ∧ next + 0x80 ≤ high := by
  have hb : (UInt8.ofNat (value + 0xF0)).toNat = value + 0xF0 := toNat_ofNat_of_lt (by omega)
  simp only [begin, hb]
  rw [if_neg (by omega), if_neg (by omega), if_neg (by omega), if_neg (by omega),
    if_neg (by omega), if_neg (by omega)]
  -- The first bytes `0xF0` and `0xF4` leave less room for the second one than those between.
  by_cases hfirst : value = 0
  · subst hfirst
    have hlow := hshort rfl
    exact ⟨0x90, 0xBF, rfl, by omega, by omega⟩
  · by_cases htop : value = 4
    · subst htop
      have hhigh := hlast rfl
      exact ⟨0x80, 0x8F, rfl, by omega, by omega⟩
    · rw [if_neg (by omega), if_pos (by omega), Nat.add_sub_cancel]
      exact ⟨0x80, 0xBF, rfl, by omega, by omega⟩

/-! ### Whole characters -/

/-- The bytes of a character are read as that character, whatever follows. -/
theorem scan_utf8EncodeChar (c : Char) (rest : Bytes) :
    scan none (String.utf8EncodeChar c ++ rest) = some c :: scan none rest := by
  have hvalid : c.toNat < 0xD800 ∨ 0xDFFF < c.toNat ∧ c.toNat < 0x110000 := c.valid
  have hc : Char.ofNat c.toNat = c := Char.ofNat_toNat c
  have hv : c.val.toNat = c.toNat := rfl
  unfold String.utf8EncodeChar
  simp only [hv]
  generalize c.toNat = n at hvalid hc hv ⊢
  have tail (m : Nat) : (UInt8.ofNat (m % 64 + 128)).toNat = m % 64 + 128 :=
    toNat_ofNat_of_lt (by omega)
  -- The four lengths, shortest first; the bits of the value are put together again at the end.
  split
  · have h0 : (UInt8.ofNat n).toNat = n := toNat_ofNat_of_lt (by omega)
    have h1 : n < 128 := by omega
    simp [scan_cons, step, begin, h0, hc, h1]
  · split
    · have hbegin := begin_two (n / 64 % 32) (by omega) (by omega)
      have hn : n / 64 % 32 * 64 + (n % 64 + 128 - 0x80) = n := by omega
      simp only [List.cons_append, List.nil_append]
      rw [scan_begun _ hbegin]
      exact scan_finish _ (tail _) (by simp) (by simp only []; omega) rfl (by simp only [hn, hc])
    · split
      · obtain ⟨low, high, hbegin, hlow, hhigh⟩ :=
          begin_three (n / 4096 % 16) (n / 64 % 64) (by omega) (by omega) (by omega) (by omega)
        have hn : (n / 4096 % 16 * 64 + (n / 64 % 64 + 128 - 0x80)) * 64 +
            (n % 64 + 128 - 0x80) = n := by omega
        simp only [List.cons_append, List.nil_append]
        rw [scan_begun _ hbegin, scan_continue _ (tail _) hlow hhigh rfl]
        exact scan_finish _ (tail _) (by simp) (by simp only []; omega) rfl
          (by simp only [hn, hc])
      · obtain ⟨low, high, hbegin, hlow, hhigh⟩ :=
          begin_four (n / 262144 % 8) (n / 4096 % 64) (by omega) (by omega) (by omega) (by omega)
        have hn : ((n / 262144 % 8 * 64 + (n / 4096 % 64 + 128 - 0x80)) * 64 +
            (n / 64 % 64 + 128 - 0x80)) * 64 + (n % 64 + 128 - 0x80) = n := by omega
        simp only [List.cons_append, List.nil_append]
        rw [scan_begun _ hbegin, scan_continue _ (tail _) hlow hhigh rfl,
          scan_continue _ (tail _) (by simp) (by simp only []; omega) rfl]
        exact scan_finish _ (tail _) (by simp) (by simp only []; omega) rfl
          (by simp only [hn, hc])

theorem scan_flatMap_utf8EncodeChar (cs : List Char) :
    scan none (cs.flatMap String.utf8EncodeChar) = cs.map some := by
  induction cs with
  | nil => rfl
  | cons c cs ih =>
      rw [List.flatMap_cons, scan_utf8EncodeChar, ih, List.map_cons]

theorem decodeLossy_encode (s : String) : decodeLossy (encode s) = s := by
  rw [decodeLossy, encode, scan_flatMap_utf8EncodeChar, List.map_map]
  have h : ((fun c : Option Char => c.getD '\uFFFD') ∘ some) = id := rfl
  rw [h, List.map_id, String.ofList_toList]

end Utf8
end HeaderAudit
