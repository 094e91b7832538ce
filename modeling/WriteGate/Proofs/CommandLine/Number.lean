import WriteGate.CommandLine.Settings

/-!
# Numbers of workers

The number of workers is read as a signed integer of sixty-four bits first and
compared with its bounds afterwards, and the reading has limits and faults of
its own. Of all this little is left where a number is accepted. The bounds are
well within the limits, a number behind a minus sign is below them, and what
remains is decimal digits, behind a plus sign or not, with as many zeros in
front as one likes. The number that comes out is the one that the digits denote.
-/

namespace WriteGate.CommandLine

/-- **A text writes a number** when it is decimal digits, at least one, behind a plus sign or
not, and these denote the number. -/
def Writes (text : List Char) (number : Nat) : Prop :=
  ∃ digits : List Char, (text = digits ∨ text = '+' :: digits) ∧ digits ≠ []
    ∧ (∀ c ∈ digits, c.isDigit = true) ∧ number = Nat.ofDigitChars 10 digits 0

/-- More digits make no smaller number. -/
theorem le_ofDigitChars (digits : List Char) (n : Nat) : n ≤ Nat.ofDigitChars 10 digits n := by
  induction digits generalizing n with
  | nil => exact Nat.le_refl n
  | cons c digits ih =>
    rw [Nat.ofDigitChars_cons]
    exact Nat.le_trans (by omega) (ih _)

/-- **Digits are added up to a limit** exactly when they are digits and the number does not pass
it. It need not be looked at on the way, since more digits make no smaller number. -/
theorem foldlM_appendDigit_eq_ok_iff {limit : Nat} {overflow : IntegerFault}
    {digits : List Char} {n m : Nat} (hn : n ≤ limit) :
    digits.foldlM (appendDigit limit overflow) n = .ok m ↔
      (∀ c ∈ digits, c.isDigit = true) ∧ m = Nat.ofDigitChars 10 digits n ∧ m ≤ limit := by
  induction digits generalizing n with
  | nil =>
    show Except.ok n = Except.ok m ↔ _
    rw [Except.ok.injEq]
    constructor
    · rintro rfl
      exact ⟨fun c hc => absurd hc List.not_mem_nil, rfl, hn⟩
    · rintro ⟨-, rfl, -⟩
      rfl
  | cons c digits ih =>
    rw [List.foldlM_cons, List.forall_mem_cons, Nat.ofDigitChars_cons]
    unfold appendDigit
    cases hc : c.isDigit with
    | false =>
      refine iff_of_false (fun h => ?_) (fun h => ?_)
      · cases h
      · cases h.1.1
    | true =>
      by_cases hle : 10 * n + (c.toNat - '0'.toNat) ≤ limit
      · simp only [Bool.not_true, Bool.false_eq_true, if_false, if_pos hle, true_and]
        exact ih hle
      · have hmore := le_ofDigitChars digits (10 * n + (c.toNat - '0'.toNat))
        simp only [Bool.not_true, Bool.false_eq_true, if_false, if_neg hle]
        refine iff_of_false (fun h => ?_) (fun h => ?_)
        · cases h
        · omega

theorem writes_plus_iff {digits : List Char} {n : Nat} :
    Writes ('+' :: digits) n ↔ digits ≠ []
      ∧ (∀ c ∈ digits, c.isDigit = true) ∧ n = Nat.ofDigitChars 10 digits 0 := by
  constructor
  · rintro ⟨_, rfl | h, hne, hdigits, hn⟩
    · exact absurd (hdigits '+' (List.mem_cons_self ..)) (by decide)
    · obtain ⟨-, rfl⟩ := List.cons_eq_cons.1 h
      exact ⟨hne, hdigits, hn⟩
  · rintro ⟨hne, hdigits, hn⟩
    exact ⟨digits, .inr rfl, hne, hdigits, hn⟩

theorem writes_iff_of_not_plus {text : List Char} {n : Nat}
    (h : ∀ digits, text ≠ '+' :: digits) :
    Writes text n ↔ text ≠ []
      ∧ (∀ c ∈ text, c.isDigit = true) ∧ n = Nat.ofDigitChars 10 text 0 := by
  constructor
  · rintro ⟨digits, rfl | htext, hne, hdigits, hn⟩
    · exact ⟨hne, hdigits, hn⟩
    · exact absurd htext (h digits)
  · rintro ⟨hne, hdigits, hn⟩
    exact ⟨text, .inl rfl, hne, hdigits, hn⟩

theorem map_foldlM_appendDigit_eq_ok_iff {digits : List Char} {i : Int} :
    (digits.foldlM (appendDigit maxInteger .tooLarge) 0).map Int.ofNat = .ok i ↔
      ∃ n : Nat, ((∀ c ∈ digits, c.isDigit = true) ∧ n = Nat.ofDigitChars 10 digits 0)
        ∧ n ≤ maxInteger ∧ i = n := by
  constructor
  · intro h
    cases hread : digits.foldlM (appendDigit maxInteger .tooLarge) 0 with
    | error fault =>
      rw [hread] at h
      cases h
    | ok n =>
      rw [hread] at h
      obtain rfl : Int.ofNat n = i := Except.ok.inj h
      obtain ⟨hdigits, hn, hle⟩ := (foldlM_appendDigit_eq_ok_iff (Nat.zero_le _)).1 hread
      exact ⟨n, ⟨hdigits, hn⟩, hle, rfl⟩
  · rintro ⟨n, ⟨hdigits, hn⟩, hle, rfl⟩
    rw [(foldlM_appendDigit_eq_ok_iff (Nat.zero_le _)).2 ⟨hdigits, hn, hle⟩]
    rfl

/-- **A positive integer is read exactly where it is written**, within the limit. -/
theorem readInteger_eq_ok_iff {text : List Char} {i : Int} (hpos : 0 < i) :
    readInteger text = .ok i ↔ ∃ n : Nat, Writes text n ∧ n ≤ maxInteger ∧ i = n := by
  have hminus : ∀ (digits : List Char) (n : Nat), ¬ Writes ('-' :: digits) n := by
    intro digits n h
    rw [writes_iff_of_not_plus (by simp)] at h
    exact absurd (h.2.1 '-' (List.mem_cons_self ..)) (by decide)
  unfold readInteger
  split
  · refine iff_of_false (fun h => by cases h) ?_
    rintro ⟨n, h, -⟩
    rw [writes_iff_of_not_plus (by simp)] at h
    exact h.1 rfl
  · refine iff_of_false (fun h => by cases h) ?_
    rintro ⟨n, h, -⟩
    exact (writes_plus_iff.1 h).1 rfl
  · exact iff_of_false (fun h => by cases h) fun ⟨n, h, _⟩ => hminus _ n h
  · next digits _ =>
    -- behind a minus sign there is nothing positive
    refine iff_of_false (fun h => ?_) fun ⟨n, h, _⟩ => hminus _ n h
    cases hread : digits.foldlM (appendDigit (maxInteger + 1) .tooSmall) 0 with
    | error fault =>
      rw [hread] at h
      cases h
    | ok n =>
      rw [hread] at h
      obtain rfl : -(n : Int) = i := Except.ok.inj h
      omega
  · next digits hne =>
    have hdigits : digits ≠ [] := by
      rintro rfl
      exact hne rfl
    rw [map_foldlM_appendDigit_eq_ok_iff]
    simp only [writes_plus_iff, hdigits, ne_eq, not_false_eq_true, true_and]
  · next hnil _ _ _ hplus =>
    have hne : text ≠ [] := hnil
    rw [map_foldlM_appendDigit_eq_ok_iff]
    simp only [writes_iff_of_not_plus hplus, hne, ne_eq, not_false_eq_true, true_and]

/-- **The number of workers that a value gives**: what it writes, from one to the greatest
number that is allowed. -/
theorem readJobs_eq_ok_iff {value : String} {jobs : UInt16} :
    Draft.readJobs value = .ok jobs ↔
      ∃ n : Nat, Writes value.toList n ∧ 1 ≤ n ∧ n ≤ maxJobs ∧ jobs.toNat = n := by
  have hlimit : maxJobs ≤ maxInteger := by decide
  unfold Draft.readJobs
  constructor
  · intro h
    cases hread : readInteger value.toList with
    | error fault =>
      rw [hread] at h
      cases h
    | ok i =>
      rw [hread] at h
      dsimp only at h
      split at h
      · next hbounds =>
        obtain ⟨n, hwrites, -, rfl⟩ := (readInteger_eq_ok_iff (by omega)).1 hread
        obtain rfl : UInt16.ofNat (n : Int).toNat = jobs := Except.ok.inj h
        have hn : 1 ≤ n ∧ n ≤ maxJobs := by omega
        refine ⟨n, hwrites, hn.1, hn.2, ?_⟩
        rw [Int.toNat_natCast, UInt16.toNat_ofNat']
        exact Nat.mod_eq_of_lt (Nat.lt_succ_of_le hn.2)
      · cases h
  · rintro ⟨n, hwrites, hleast, hgreatest, hjobs⟩
    have hread : readInteger value.toList = .ok (n : Int) :=
      (readInteger_eq_ok_iff (by omega)).2 ⟨n, hwrites, Nat.le_trans hgreatest hlimit, rfl⟩
    have hbounds : 1 ≤ (n : Int) ∧ (n : Int) ≤ maxJobs := by omega
    rw [hread]
    dsimp only
    rw [if_pos hbounds, Int.toNat_natCast, ← hjobs, UInt16.ofNat_toNat]

end WriteGate.CommandLine
