import TopicLinks.Text.Utf8

/-!
# Reading encoded text

The bytes of a character are read as that character, so the bytes of a text are read as the text.
A byte below 0x80 never continues a character. Whatever is pending before it ends there as a fault,
and what follows is read as if nothing had been before: decoding splits at every such byte.
-/

namespace TopicLinks.Text.Utf8

/-! ### First bytes -/

/-- A character below 0x80 is encoded as one byte. -/
theorem utf8EncodeChar_of_lt {c : Char} (h : c.toNat < 0x80) :
    String.utf8EncodeChar c = [.ofNat c.toNat] := by
  have hle : c.val.toNat ≤ 127 := Nat.le_of_lt_succ h
  simp only [String.utf8EncodeChar, if_pos hle]
  rfl

/-- A byte of its own is read as the character it stands for. -/
theorem start_of_lt {c : Char} (h : c.toNat < 0x80) :
    start (.ofNat c.toNat) = ([some c], none) := by
  have hbyte : (UInt8.ofNat c.toNat).toNat = c.toNat := by
    rw [UInt8.toNat_ofNat']
    exact Nat.mod_eq_of_lt (Nat.lt_trans h (by decide))
  have hlt : UInt8.ofNat c.toNat < 0x80 := by
    rw [UInt8.lt_iff_toNat_lt, hbyte]
    exact h
  rw [start, if_pos hlt, hbyte, Char.ofNat_toNat]

/-- The first byte of two. Values below 2 would be overlong. -/
theorem start_two : ∀ n < 32, 2 ≤ n →
    start (.ofNat (n + 0xC0)) = ([], some ⟨n, 1, 0x80, 0xBF⟩) := by
  decide

/-- The first byte of three. Overlong forms and surrogates are left to the second byte. -/
theorem start_three : ∀ n < 16,
    start (.ofNat (n + 0xE0)) =
      ([], some ⟨n, 2, if n = 0 then 0xA0 else 0x80, if n = 0xD then 0x9F else 0xBF⟩) := by
  decide

/-- The first byte of four. Overlong forms and values past the last code point are left to the
second byte. -/
theorem start_four : ∀ n < 5,
    start (.ofNat (n + 0xF0)) =
      ([], some ⟨n, 3, if n = 0 then 0x90 else 0x80, if n = 4 then 0x8F else 0xBF⟩) := by
  decide

/-! ### Further bytes -/

/-- A first byte that stands for no character yet leaves one pending. -/
theorem scan_of_start {b : UInt8} {p : Pending} (h : start b = ([], some p)) (rest : List UInt8) :
    scan none (b :: rest) = scan (some p) rest := by
  rw [scan, step, h, List.nil_append]

/-- A continuation byte in bounds adds its six bits to the pending character. -/
theorem step_continuation {p : Pending} {n : Nat} (hn : n < 64) (hlow : p.low.toNat ≤ n + 0x80)
    (hhigh : n + 0x80 ≤ p.high.toNat) :
    step (some p) (.ofNat (n + 0x80)) =
      if p.owed = 1 then ([some (Char.ofNat (p.value * 64 + n))], none)
      else ([], some ⟨p.value * 64 + n, p.owed - 1, 0x80, 0xBF⟩) := by
  have hbyte : (UInt8.ofNat (n + 0x80)).toNat = n + 0x80 := by
    rw [UInt8.toNat_ofNat']
    omega
  have hbounds : p.low ≤ .ofNat (n + 0x80) ∧ .ofNat (n + 0x80) ≤ p.high := by
    rw [UInt8.le_iff_toNat_le, UInt8.le_iff_toNat_le, hbyte]
    exact ⟨hlow, hhigh⟩
  rw [step, if_pos hbounds, hbyte, Nat.add_sub_cancel]

/-- A byte in bounds that is not the last one leaves fewer bytes owed, without special bounds. -/
theorem scan_continued {value owed n : Nat} {low high : UInt8} (hn : n < 64)
    (hlow : low.toNat ≤ n + 0x80) (hhigh : n + 0x80 ≤ high.toNat) (rest : List UInt8) :
    scan (some ⟨value, owed + 2, low, high⟩) (.ofNat (n + 0x80) :: rest) =
      scan (some ⟨value * 64 + n, owed + 1, 0x80, 0xBF⟩) rest := by
  have hstep := step_continuation (p := ⟨value, owed + 2, low, high⟩) hn hlow hhigh
  rw [if_neg (by simp)] at hstep
  rw [scan, hstep, List.nil_append]
  rfl

/-- The last byte completes the character. -/
theorem scan_last {value n : Nat} (hn : n < 64) (rest : List UInt8) :
    scan (some ⟨value, 1, 0x80, 0xBF⟩) (.ofNat (n + 0x80) :: rest) =
      some (Char.ofNat (value * 64 + n)) :: scan none rest := by
  have hlow : (0x80 : UInt8).toNat ≤ n + 0x80 := Nat.le_add_left 0x80 n
  have hhigh : n + 0x80 ≤ (0xBF : UInt8).toNat := Nat.add_le_add_right (Nat.le_of_lt_succ hn) 0x80
  have hstep := step_continuation (p := ⟨value, 1, 0x80, 0xBF⟩) hn hlow hhigh
  rw [if_pos rfl] at hstep
  rw [scan, hstep, List.singleton_append]

/-- The bytes of a character are read as this character, whatever follows. -/
theorem scan_utf8EncodeChar (c : Char) (rest : List UInt8) :
    scan none (String.utf8EncodeChar c ++ rest) = some c :: scan none rest := by
  have hc : c.val.toNat < 0xD800 ∨ 0xDFFF < c.val.toNat ∧ c.val.toNat < 0x110000 := c.valid
  have hvalue : Char.ofNat c.val.toNat = c := Char.ofNat_toNat c
  by_cases hone : c.val.toNat ≤ 0x7F
  · have hbyte : c.toNat < 0x80 := Nat.lt_succ_of_le hone
    rw [utf8EncodeChar_of_lt hbyte, List.singleton_append, scan, step, start_of_lt hbyte]
    rfl
  simp only [String.utf8EncodeChar, if_neg hone]
  generalize c.val.toNat = v at hc hvalue hone
  by_cases htwo : v ≤ 0x7FF
  · have hchar : v / 64 % 32 * 64 + v % 64 = v := by omega
    rw [if_pos htwo, List.cons_append, List.singleton_append,
      scan_of_start (start_two _ (by omega) (by omega)), scan_last (by omega), hchar, hvalue]
  by_cases hthree : v ≤ 0xFFFF
  · have hchar : (v / 4096 % 16 * 64 + v / 64 % 64) * 64 + v % 64 = v := by omega
    -- Below 0x800 the form would be overlong, and from 0xD800 on it would be a surrogate.
    have hlow : (if v / 4096 % 16 = 0 then 0xA0 else 0x80 : UInt8).toNat ≤ v / 64 % 64 + 0x80 := by
      split
      · change 0xA0 ≤ _
        omega
      · exact Nat.le_add_left _ _
    have hhigh : v / 64 % 64 + 0x80 ≤
        (if v / 4096 % 16 = 0xD then 0x9F else 0xBF : UInt8).toNat := by
      split
      · change _ ≤ 0x9F
        omega
      · change _ ≤ 0xBF
        omega
    rw [if_neg htwo, if_pos hthree]
    simp only [List.cons_append, List.nil_append]
    rw [scan_of_start (start_three _ (by omega)), scan_continued (by omega) hlow hhigh,
      scan_last (by omega), hchar, hvalue]
  · have hchar : ((v / 262144 % 8 * 64 + v / 4096 % 64) * 64 + v / 64 % 64) * 64 + v % 64 = v := by
      omega
    -- Below 0x10000 the form would be overlong, and no code point is above 0x10FFFF.
    have hlow : (if v / 262144 % 8 = 0 then 0x90 else 0x80 : UInt8).toNat ≤
        v / 4096 % 64 + 0x80 := by
      split
      · change 0x90 ≤ _
        omega
      · exact Nat.le_add_left _ _
    have hhigh : v / 4096 % 64 + 0x80 ≤
        (if v / 262144 % 8 = 4 then 0x8F else 0xBF : UInt8).toNat := by
      split
      · change _ ≤ 0x8F
        omega
      · change _ ≤ 0xBF
        omega
    have hthird : (0x80 : UInt8).toNat ≤ v / 64 % 64 + 0x80 ∧
        v / 64 % 64 + 0x80 ≤ (0xBF : UInt8).toNat := by
      change 0x80 ≤ _ ∧ _ ≤ 0xBF
      omega
    rw [if_neg htwo, if_neg hthree]
    simp only [List.cons_append, List.nil_append]
    rw [scan_of_start (start_four _ (by omega)), scan_continued (by omega) hlow hhigh,
      scan_continued (by omega) hthird.1 hthird.2, scan_last (by omega), hchar, hvalue]

/-- An encoded text is read as that text. -/
theorem decodeLossy_encode (text : List Char) : decodeLossy (encode text) = text := by
  induction text with
  | nil => rfl
  | cons c rest ih =>
    rw [encode, List.flatMap_cons, decodeLossy, scan_utf8EncodeChar]
    exact congrArg (c :: ·) ih

/-! ### Bytes that end what is pending -/

/-- What is pending is continued by bytes from 0x80 on only. -/
def IsBounded (state : Option Pending) : Prop := ∀ p ∈ state, 0x80 ≤ p.low

theorem isBounded_none : IsBounded none := fun p hp => absurd hp (Option.not_mem_none p)

theorem isBounded_some {p : Pending} (h : 0x80 ≤ p.low) : IsBounded (some p) := by
  intro q hq
  rwa [← Option.some.inj hq]

/-- No first byte leaves anything else pending. -/
theorem isBounded_start (b : UInt8) : IsBounded (start b).2 := by
  have hleast : (0x80 : UInt8) ≤ 0x80 := by decide
  unfold start
  repeat' split
  all_goals first
    | exact isBounded_none
    | exact isBounded_some hleast
    | exact isBounded_some (by decide)

/-- Reading keeps what is pending bounded. -/
theorem isBounded_step {state : Option Pending} (h : IsBounded state) (b : UInt8) :
    IsBounded (step state b).2 := by
  cases state with
  | none => exact isBounded_start b
  | some p =>
    rw [step]
    split
    · split
      · exact isBounded_none
      · exact isBounded_some (show (0x80 : UInt8) ≤ 0x80 by decide)
    · exact isBounded_start b

/-- A byte below 0x80 ends what is pending as a fault and stands for itself. -/
theorem step_of_lt {state : Option Pending} (h : IsBounded state) {c : Char} (hc : c.toNat < 0x80) :
    step state (.ofNat c.toNat) = (finish state ++ [some c], none) := by
  cases state with
  | none => exact start_of_lt hc
  | some p =>
    have hout : ¬(p.low ≤ .ofNat c.toNat ∧ .ofNat c.toNat ≤ p.high) := by
      have hlow : (0x80 : UInt8).toNat ≤ p.low.toNat := h p rfl
      rw [UInt8.le_iff_toNat_le, UInt8.toNat_ofNat']
      change 0x80 ≤ _ at hlow
      omega
    rw [step, if_neg hout, start_of_lt hc]
    rfl

/-- Reading splits at a character that is one byte below 0x80. The induction is on the bytes before
it, with anything pending before them. -/
theorem scan_append_of_lt {c : Char} (hc : c.toNat < 0x80) (after : List UInt8) :
    ∀ (before : List UInt8) {state : Option Pending}, IsBounded state →
      scan state (before ++ .ofNat c.toNat :: after) =
        scan state before ++ some c :: scan none after := by
  intro before
  induction before with
  | nil =>
    intro state h
    rw [List.nil_append, scan, scan, step_of_lt h hc, List.append_assoc]
    rfl
  | cons b rest ih =>
    intro state h
    rw [List.cons_append, scan, scan, ih (isBounded_step h b), List.append_assoc]

/-- Decoding splits at a character that is one byte below 0x80. -/
theorem decodeLossy_append_of_lt {c : Char} (hc : c.toNat < 0x80) (before after : List UInt8) :
    decodeLossy (before ++ .ofNat c.toNat :: after) =
      decodeLossy before ++ c :: decodeLossy after := by
  rw [decodeLossy, scan_append_of_lt hc after before isBounded_none, List.map_append, List.map_cons]
  rfl

end TopicLinks.Text.Utf8
