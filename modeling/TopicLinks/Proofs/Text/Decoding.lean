import TopicLinks.Proofs.Text.Utf8

/-!
# Only encoded text is decoded

Strict decoding is the inverse of encoding: what it reads without a fault are the bytes of the text
that it gives. A first byte without a fault says how many bytes follow, and together they are the
bytes of one character, because the bounds on the second one leave out just what no character has.
-/

namespace TopicLinks.Text.Utf8

/-! ### The bytes of a character -/

section Characters

variable {v : Nat}

theorem val_ofNat (h : v < 0xD800 ∨ 0xDFFF < v ∧ v < 0x110000) : (Char.ofNat v).val.toNat = v := by
  have hvalid : v.isValidChar := h
  rw [Char.ofNat, dif_pos hvalid]
  rfl

/-- The bytes of a character of two. -/
theorem utf8EncodeChar_two (hlow : 0x80 ≤ v) (hhigh : v < 0x800) :
    String.utf8EncodeChar (Char.ofNat v) = [.ofNat (v / 64 + 0xC0), .ofNat (v % 64 + 0x80)] := by
  have hfirst : v / 64 % 32 = v / 64 := Nat.mod_eq_of_lt (by omega)
  rw [String.utf8EncodeChar, val_ofNat (by omega), if_neg (by omega), if_pos (by omega), hfirst]

/-- The bytes of a character of three. -/
theorem utf8EncodeChar_three (hlow : 0x800 ≤ v) (hhigh : v < 0x10000)
    (h : v < 0xD800 ∨ 0xDFFF < v) : String.utf8EncodeChar (Char.ofNat v) =
      [.ofNat (v / 4096 + 0xE0), .ofNat (v / 64 % 64 + 0x80), .ofNat (v % 64 + 0x80)] := by
  have hfirst : v / 4096 % 16 = v / 4096 := Nat.mod_eq_of_lt (by omega)
  rw [String.utf8EncodeChar, val_ofNat (by omega), if_neg (by omega), if_neg (by omega),
    if_pos (by omega), hfirst]

/-- The bytes of a character of four. -/
theorem utf8EncodeChar_four (hlow : 0x10000 ≤ v) (hhigh : v < 0x110000) :
    String.utf8EncodeChar (Char.ofNat v) =
      [.ofNat (v / 262144 + 0xF0), .ofNat (v / 4096 % 64 + 0x80), .ofNat (v / 64 % 64 + 0x80),
        .ofNat (v % 64 + 0x80)] := by
  have hfirst : v / 262144 % 8 = v / 262144 := Nat.mod_eq_of_lt (by omega)
  rw [String.utf8EncodeChar, val_ofNat (by omega), if_neg (by omega), if_neg (by omega),
    if_neg (by omega), hfirst]

end Characters

/-! ### Bytes without a fault -/

/-- The bytes are read without a fault. -/
def IsFaultless (state : Option Pending) (bytes : List UInt8) : Prop :=
  ∀ item ∈ scan state bytes, item.isSome = true

section Faultless

variable {b : UInt8} {bytes : List UInt8}

/-- A byte that is at least some value is this value and something above. -/
theorem exists_eq_ofNat_add (b : UInt8) (low : Nat) (h : low ≤ b.toNat) :
    ∃ n, n + low = b.toNat ∧ b = .ofNat (n + low) := by
  refine ⟨b.toNat - low, Nat.sub_add_cancel h, ?_⟩
  rw [Nat.sub_add_cancel h, UInt8.ofNat_toNat]

/-- Bytes that only continue, or that could only start an overlong form of two bytes, are faults
between two characters. -/
theorem start_continuation : ∀ n < 66, start (.ofNat (n + 0x80)) = ([none], none) := by
  decide

/-- So are bytes that could only start a value past the last code point. -/
theorem start_past : ∀ n < 11, start (.ofNat (n + 0xF5)) = ([none], none) := by
  decide

theorem IsFaultless.start_ne (h : IsFaultless none (b :: bytes)) : start b ≠ ([none], none) := by
  intro hstart
  have hfault : none ∈ scan none (b :: bytes) := by
    rw [scan, step, hstart]
    exact List.mem_cons_self
  exact absurd (h none hfault) (by decide)

/-- A byte without a fault between two characters is a character, or the first byte of one. -/
theorem IsFaultless.first (h : IsFaultless none (b :: bytes)) :
    b.toNat < 0x80 ∨ (∃ n < 32, 2 ≤ n ∧ b = .ofNat (n + 0xC0)) ∨ (∃ n < 16, b = .ofNat (n + 0xE0)) ∨
      ∃ n < 5, b = .ofNat (n + 0xF0) := by
  have hbyte : b.toNat < 256 := b.toNat_lt
  by_cases hone : b.toNat < 0x80
  · exact .inl hone
  by_cases htwo : b.toNat < 0xC2
  · obtain ⟨n, hn, rfl⟩ := exists_eq_ofNat_add b 0x80 (by omega)
    exact absurd (start_continuation n (by omega)) h.start_ne
  by_cases hthree : b.toNat < 0xE0
  · obtain ⟨n, hn, hb⟩ := exists_eq_ofNat_add b 0xC0 (by omega)
    exact .inr (.inl ⟨n, by omega, by omega, hb⟩)
  by_cases hfour : b.toNat < 0xF0
  · obtain ⟨n, hn, hb⟩ := exists_eq_ofNat_add b 0xE0 (by omega)
    exact .inr (.inr (.inl ⟨n, by omega, hb⟩))
  by_cases hpast : b.toNat < 0xF5
  · obtain ⟨n, hn, hb⟩ := exists_eq_ofNat_add b 0xF0 (by omega)
    exact .inr (.inr (.inr ⟨n, by omega, hb⟩))
  · obtain ⟨n, hn, rfl⟩ := exists_eq_ofNat_add b 0xF5 (by omega)
    exact absurd (start_past n (by omega)) h.start_ne

variable {value owed : Nat} {low high : UInt8}

/-- A byte without a fault within a character continues it. -/
theorem IsFaultless.next (h : IsFaultless (some ⟨value, owed, low, high⟩) bytes)
    (hlow : 0x80 ≤ low.toNat) (hhigh : high.toNat ≤ 0xBF) :
    ∃ n < 64, ∃ rest, bytes = .ofNat (n + 0x80) :: rest ∧
      low.toNat ≤ n + 0x80 ∧ n + 0x80 ≤ high.toNat := by
  cases bytes with
  | nil => exact absurd (h none List.mem_cons_self) (by decide)
  | cons b rest =>
    have hbounds : low ≤ b ∧ b ≤ high := by
      refine Decidable.byContradiction fun hout => ?_
      have hfault : none ∈ scan (some ⟨value, owed, low, high⟩) (b :: rest) := by
        rw [scan, step, if_neg hout]
        exact List.mem_append_left _ List.mem_cons_self
      exact absurd (h none hfault) (by decide)
    obtain ⟨hb, hb'⟩ : low.toNat ≤ b.toNat ∧ b.toNat ≤ high.toNat := hbounds
    obtain ⟨n, hn, hbyte⟩ := exists_eq_ofNat_add b 0x80 (by omega)
    exact ⟨n, by omega, rest, by rw [hbyte], by omega, by omega⟩

/-- A byte that is not the last one of a character leaves a character without special bounds. -/
theorem IsFaultless.continued
    (h : IsFaultless (some ⟨value, owed + 2, low, high⟩) bytes) (hlow : 0x80 ≤ low.toNat)
    (hhigh : high.toNat ≤ 0xBF) : ∃ n < 64, ∃ rest, bytes = .ofNat (n + 0x80) :: rest ∧
      low.toNat ≤ n + 0x80 ∧ n + 0x80 ≤ high.toNat ∧
        IsFaultless (some ⟨value * 64 + n, owed + 1, 0x80, 0xBF⟩) rest := by
  obtain ⟨n, hn, rest, rfl, hb, hb'⟩ := h.next hlow hhigh
  refine ⟨n, hn, rest, rfl, hb, hb', ?_⟩
  rwa [IsFaultless, scan_continued hn hb hb'] at h

/-- Bytes that are read without a fault start with those of a character. -/
theorem IsFaultless.exists_utf8EncodeChar (h : IsFaultless none (b :: bytes)) :
    ∃ c rest, b :: bytes = String.utf8EncodeChar c ++ rest := by
  obtain hone | ⟨n, hn, hn', rfl⟩ | ⟨n, hn, rfl⟩ | ⟨n, hn, rfl⟩ := h.first
  · refine ⟨Char.ofNat b.toNat, bytes, ?_⟩
    have hchar : (Char.ofNat b.toNat).toNat = b.toNat := val_ofNat (by omega)
    rw [utf8EncodeChar_of_lt (by omega), hchar, UInt8.ofNat_toNat]
    rfl
  · rw [IsFaultless, scan_of_start (start_two n hn hn')] at h
    obtain ⟨m, hm, rest, rfl, -, -⟩ := IsFaultless.next h (by decide) (by decide)
    refine ⟨Char.ofNat (n * 64 + m), rest, ?_⟩
    have hfirst : (n * 64 + m) / 64 = n := by omega
    have hlast : (n * 64 + m) % 64 = m := by omega
    rw [utf8EncodeChar_two (by omega) (by omega), hfirst, hlast]
    rfl
  · rw [IsFaultless, scan_of_start (start_three n hn)] at h
    obtain ⟨m, hm, rest, rfl, hlow, hhigh, h⟩ := IsFaultless.continued h
      (by split <;> decide) (by split <;> decide)
    obtain ⟨k, hk, rest, rfl, -, -⟩ := IsFaultless.next h (by decide) (by decide)
    have hlow' : n = 0 → 0x20 + 0x80 ≤ m + 0x80 := by
      rintro rfl
      exact hlow
    have hhigh' : n = 0xD → m + 0x80 ≤ 0x1F + 0x80 := by
      rintro rfl
      exact hhigh
    refine ⟨Char.ofNat ((n * 64 + m) * 64 + k), rest, ?_⟩
    have hfirst : ((n * 64 + m) * 64 + k) / 4096 = n := by omega
    have hsecond : ((n * 64 + m) * 64 + k) / 64 % 64 = m := by omega
    have hlast : ((n * 64 + m) * 64 + k) % 64 = k := by omega
    rw [utf8EncodeChar_three (by omega) (by omega) (by omega), hfirst, hsecond, hlast]
    rfl
  · rw [IsFaultless, scan_of_start (start_four n hn)] at h
    obtain ⟨m, hm, rest, rfl, hlow, hhigh, h⟩ := IsFaultless.continued h
      (by split <;> decide) (by split <;> decide)
    obtain ⟨k, hk, rest, rfl, -, -, h⟩ := IsFaultless.continued h (by decide) (by decide)
    obtain ⟨l, hl, rest, rfl, -, -⟩ := IsFaultless.next h (by decide) (by decide)
    have hlow' : n = 0 → 0x10 + 0x80 ≤ m + 0x80 := by
      rintro rfl
      exact hlow
    have hhigh' : n = 4 → m + 0x80 ≤ 0xF + 0x80 := by
      rintro rfl
      exact hhigh
    refine ⟨Char.ofNat (((n * 64 + m) * 64 + k) * 64 + l), rest, ?_⟩
    have hfirst : (((n * 64 + m) * 64 + k) * 64 + l) / 262144 = n := by omega
    have hsecond : (((n * 64 + m) * 64 + k) * 64 + l) / 4096 % 64 = m := by omega
    have hthird : (((n * 64 + m) * 64 + k) * 64 + l) / 64 % 64 = k := by omega
    have hlast : (((n * 64 + m) * 64 + k) * 64 + l) % 64 = l := by omega
    rw [utf8EncodeChar_four (by omega) (by omega), hfirst, hsecond, hthird, hlast]
    rfl

end Faultless

/-! ### Decoding -/

/-- Bytes that are read without a fault are those of a text. Every character takes bytes away, which
is what the induction is on. -/
theorem IsFaultless.exists_encode {bytes : List UInt8} (h : IsFaultless none bytes) :
    ∃ text, bytes = encode text := by
  induction hlength : bytes.length using Nat.strongRecOn generalizing bytes with
  | ind length ih =>
    cases bytes with
    | nil => exact ⟨[], rfl⟩
    | cons b bytes =>
      obtain ⟨c, rest, hbytes⟩ := h.exists_utf8EncodeChar
      rw [hbytes] at h hlength ⊢
      have hrest : IsFaultless none rest := fun item hitem =>
        h item (by rw [scan_utf8EncodeChar]; exact List.mem_cons_of_mem _ hitem)
      have hpos : 0 < (String.utf8EncodeChar c).length := by
        rw [String.length_utf8EncodeChar]
        exact c.utf8Size_pos
      have hlt : rest.length < length := by
        rw [← hlength, List.length_append]
        omega
      obtain ⟨text, rfl⟩ := ih rest.length hlt hrest rfl
      exact ⟨c :: text, by rw [encode, encode, List.flatMap_cons]⟩

theorem scan_encode (text : List Char) : scan none (encode text) = text.map some := by
  induction text with
  | nil => rfl
  | cons c rest ih =>
    rw [encode, List.flatMap_cons, scan_utf8EncodeChar, List.map_cons]
    exact congrArg (some c :: ·) ih

theorem decode?_encode (text : List Char) : decode? (encode text) = some text := by
  have hall : (text.map some).all (·.isSome) = true := by simp
  rw [decode?, scan_encode, if_pos hall]
  simp

/-- Decoding is exactly the inverse of encoding. -/
theorem decode?_eq_some_iff {bytes : List UInt8} {text : List Char} :
    decode? bytes = some text ↔ bytes = encode text := by
  constructor
  · intro h
    have hfaultless : IsFaultless none bytes := by
      rw [decode?] at h
      split at h
      · rename_i hall
        exact List.all_eq_true.mp hall
      · cases h
    obtain ⟨other, rfl⟩ := hfaultless.exists_encode
    rw [decode?_encode] at h
    rw [Option.some.inj h]
  · rintro rfl
    exact decode?_encode text

end TopicLinks.Text.Utf8
