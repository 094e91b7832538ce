import Mathlib.Algebra.Group.Nat.Defs
import Mathlib.Data.List.Induction

/-!
# Well-formed bytes

Which bytes spell a text, said byte by byte and without a decoder. A first byte
announces by its high bits how many bytes follow, and each of them gives six bits
to a number. The bytes are a *sequence* if the number needs that many bytes and
is a scalar value, and bytes are *well-formed* if they are one sequence behind
another. `wellFormed_iff` says that these are the bytes that the encoder makes.

The other half of the module is about bytes that are not well-formed. Read from
the front, they come to a point where it goes wrong, and it goes wrong for one of
five reasons (`Flaw`): a byte that begins nothing, a sequence that is cut short,
one that is longer than it has to be, a surrogate, a number beyond the last
scalar value. There is one case in which it matters how the point was reached.
A byte that continues a sequence is a flaw by itself, and none behind the right
bytes (`not_wellFormed_of_flaw`).
-/

namespace WriteGate.Text

/-! ## Sequences -/

/-- Whether a byte continues a sequence: its two high bits are `10`. -/
def isTrail (b : UInt8) : Bool := 0x80 ≤ b.toNat && b.toNat < 0xC0

/-- **What a first byte announces.** -/
structure Announcement where
  /-- How many bytes follow. -/
  owed : Nat
  /-- The number that the first byte gives by itself. -/
  bits : Nat

namespace Announcement

/-- The announcement of a byte, by its high bits. Bytes that continue a sequence announce
nothing, and neither do those that would announce more than three others. -/
def ofByte? (b : UInt8) : Option Announcement :=
  let n := b.toNat
  if n < 0x80 then some ⟨0, n⟩
  else if n < 0xC0 then none
  else if n < 0xE0 then some ⟨1, n - 0xC0⟩
  else if n < 0xF0 then some ⟨2, n - 0xE0⟩
  else if n < 0xF8 then some ⟨3, n - 0xF0⟩
  else none

/-- The number that is spelled with some bytes, six bits a byte. -/
def value (a : Announcement) (trail : List UInt8) : Nat :=
  trail.foldl (fun n t => n * 64 + (t.toNat - 0x80)) a.bits

/-- The least number for which so many bytes are needed. -/
def least (a : Announcement) : Nat :=
  match a.owed with
  | 0 => 0
  | 1 => 0x80
  | 2 => 0x800
  | _ => 0x10000

/-- **Whether an announcement is met**: as many bytes as announced, all of which continue a
sequence. -/
def MetBy (a : Announcement) (trail : List UInt8) : Prop :=
  trail.length = a.owed ∧ ∀ t ∈ trail, isTrail t = true

end Announcement

/-- **The bytes of one character**: they are what the first one announces, no fewer would
do, and the number is a scalar value. -/
inductive IsSequence : List UInt8 → Prop
  | intro {b : UInt8} {a : Announcement} {trail : List UInt8}
      (hfirst : Announcement.ofByte? b = some a) (hmet : a.MetBy trail)
      (hleast : a.least ≤ a.value trail) (hscalar : (a.value trail).isValidChar) :
      IsSequence (b :: trail)

/-- **Well-formed bytes**: one sequence behind another. -/
inductive WellFormed : List UInt8 → Prop
  /-- No bytes. -/
  | nil : WellFormed []
  /-- A sequence in front. -/
  | cons {bytes rest : List UInt8} (hbytes : IsSequence bytes) (hrest : WellFormed rest) :
      WellFormed (bytes ++ rest)

/-- **Bytes that go wrong at once**: no sequence is in front, and this is why. -/
inductive Flaw : List UInt8 → Prop
  /-- A byte that begins no sequence. -/
  | stray {b : UInt8} {rest : List UInt8} (hfirst : Announcement.ofByte? b = none) :
      Flaw (b :: rest)
  /-- A sequence without all the bytes that were announced. -/
  | cutShort {b : UInt8} {a : Announcement} {rest : List UInt8}
      (hfirst : Announcement.ofByte? b = some a) (hshort : ¬ a.MetBy (rest.take a.owed)) :
      Flaw (b :: rest)
  /-- A number spelled with more bytes than it needs. -/
  | overlong {b : UInt8} {a : Announcement} {rest : List UInt8}
      (hfirst : Announcement.ofByte? b = some a) (hmet : a.MetBy (rest.take a.owed))
      (hlong : a.value (rest.take a.owed) < a.least) : Flaw (b :: rest)
  /-- A surrogate. -/
  | surrogate {b : UInt8} {a : Announcement} {rest : List UInt8}
      (hfirst : Announcement.ofByte? b = some a) (hmet : a.MetBy (rest.take a.owed))
      (hlow : 0xD800 ≤ a.value (rest.take a.owed))
      (hhigh : a.value (rest.take a.owed) ≤ 0xDFFF) : Flaw (b :: rest)
  /-- A number beyond the last scalar value. -/
  | beyond {b : UInt8} {a : Announcement} {rest : List UInt8}
      (hfirst : Announcement.ofByte? b = some a) (hmet : a.MetBy (rest.take a.owed))
      (hbeyond : 0x10FFFF < a.value (rest.take a.owed)) : Flaw (b :: rest)

/-! ## Bytes that continue a sequence

They are the digits of a number to the base 64. -/

theorem isTrail_iff {b : UInt8} : isTrail b = true ↔ 0x80 ≤ b.toNat ∧ b.toNat < 0xC0 := by
  simp [isTrail]

/-- The bytes for the last digits of a number, so many of them. -/
def trailBytes : Nat → Nat → List UInt8
  | 0, _ => []
  | k + 1, v => trailBytes k (v / 64) ++ [UInt8.ofNat (v % 64 + 0x80)]

theorem length_trailBytes (k v : Nat) : (trailBytes k v).length = k := by
  induction k generalizing v with
  | zero => rfl
  | succ k ih => rw [trailBytes, List.length_append, ih, List.length_singleton]

theorem toNat_digitByte (v : Nat) : (UInt8.ofNat (v % 64 + 0x80)).toNat = v % 64 + 0x80 := by
  rw [UInt8.toNat_ofNat']
  omega

theorem isTrail_of_mem_trailBytes {k v : Nat} {t : UInt8} (h : t ∈ trailBytes k v) :
    isTrail t = true := by
  induction k generalizing v with
  | zero => cases h
  | succ k ih =>
    rcases List.mem_append.1 h with h | h
    · exact ih h
    · rw [List.mem_singleton.1 h, isTrail_iff, toNat_digitByte]
      omega

namespace Announcement

variable {a : Announcement} {trail : List UInt8}

/-- One more byte is one more digit. -/
theorem value_concat (a : Announcement) (trail : List UInt8) (t : UInt8) :
    a.value (trail ++ [t]) = a.value trail * 64 + (t.toNat - 0x80) := by
  simp [value]

/-- **Digits spell the number that they are the digits of.** -/
theorem value_trailBytes {k v : Nat} (h : a.bits = v / 64 ^ k) : a.value (trailBytes k v) = v := by
  induction k generalizing v with
  | zero => rw [Nat.pow_zero, Nat.div_one] at h; exact h
  | succ k ih =>
    have hbits : a.bits = v / 64 / 64 ^ k := by
      rw [h, Nat.div_div_eq_div_mul, Nat.pow_succ']
    rw [trailBytes, value_concat, ih hbits, toNat_digitByte]
    omega

/-- **A number has no other digits than its own.** -/
theorem eq_trailBytes (htrail : ∀ t ∈ trail, isTrail t = true) :
    trail = trailBytes trail.length (a.value trail)
      ∧ a.bits = a.value trail / 64 ^ trail.length := by
  induction trail using List.reverseRecOn with
  | nil => exact ⟨rfl, (Nat.div_one _).symm⟩
  | append_singleton trail t ih =>
    obtain ⟨hdigits, hbits⟩ := ih fun t' ht' => htrail t' (List.mem_append_left _ ht')
    have ht := isTrail_iff.1 (htrail t (List.mem_append_right _ (List.mem_singleton_self t)))
    rw [value_concat, List.length_append, List.length_singleton]
    have hdiv : (a.value trail * 64 + (t.toNat - 0x80)) / 64 = a.value trail := by omega
    have hmod : (a.value trail * 64 + (t.toNat - 0x80)) % 64 + 0x80 = t.toNat := by omega
    constructor
    · rw [trailBytes, hdiv, hmod, ← hdigits, UInt8.ofNat_toNat]
    · rw [Nat.pow_succ', ← Nat.div_div_eq_div_mul, hdiv]
      exact hbits

/-! ## What is announced for a number -/

/-- The byte for an announcement. -/
def byte (a : Announcement) : UInt8 :=
  match a.owed with
  | 0 => UInt8.ofNat a.bits
  | 1 => UInt8.ofNat (a.bits + 0xC0)
  | 2 => UInt8.ofNat (a.bits + 0xE0)
  | _ => UInt8.ofNat (a.bits + 0xF0)

/-- The announcement for a number: as few bytes as it needs. -/
def ofValue (v : Nat) : Announcement :=
  if v < 0x80 then ⟨0, v⟩
  else if v < 0x800 then ⟨1, v / 64⟩
  else if v < 0x10000 then ⟨2, v / 64 ^ 2⟩
  else ⟨3, v / 64 ^ 3⟩

theorem ofValue_cases (v : Nat) :
    (v < 0x80 ∧ ofValue v = ⟨0, v⟩)
      ∨ (0x80 ≤ v ∧ v < 0x800 ∧ ofValue v = ⟨1, v / 64⟩)
      ∨ (0x800 ≤ v ∧ v < 0x10000 ∧ ofValue v = ⟨2, v / 64 ^ 2⟩)
      ∨ (0x10000 ≤ v ∧ ofValue v = ⟨3, v / 64 ^ 3⟩) := by
  unfold ofValue
  grind

theorem cases_of_ofByte? {b : UInt8} (h : ofByte? b = some a) :
    (b.toNat < 0x80 ∧ a = ⟨0, b.toNat⟩)
      ∨ (0xC0 ≤ b.toNat ∧ b.toNat < 0xE0 ∧ a = ⟨1, b.toNat - 0xC0⟩)
      ∨ (0xE0 ≤ b.toNat ∧ b.toNat < 0xF0 ∧ a = ⟨2, b.toNat - 0xE0⟩)
      ∨ (0xF0 ≤ b.toNat ∧ b.toNat < 0xF8 ∧ a = ⟨3, b.toNat - 0xF0⟩) := by
  unfold ofByte? at h
  grind

theorem bits_ofValue (v : Nat) : (ofValue v).bits = v / 64 ^ (ofValue v).owed := by
  obtain ⟨-, h⟩ | ⟨-, -, h⟩ | ⟨-, -, h⟩ | ⟨-, h⟩ := ofValue_cases v <;> simp [h]

theorem least_ofValue_le (v : Nat) : (ofValue v).least ≤ v := by
  obtain ⟨-, h⟩ | ⟨hv, -, h⟩ | ⟨hv, -, h⟩ | ⟨hv, h⟩ := ofValue_cases v <;> simp [least, *]

theorem ofByte?_byte_ofValue {v : Nat} (hv : v < 0x110000) :
    ofByte? (ofValue v).byte = some (ofValue v) := by
  have hrange (n : Nat) (hn : n < 0x100) : (UInt8.ofNat n).toNat = n := by
    rw [UInt8.toNat_ofNat']
    omega
  -- in each case the byte is in the range for its length
  obtain ⟨hlt, h⟩ | ⟨-, hlt, h⟩ | ⟨-, hlt, h⟩ | ⟨-, h⟩ := ofValue_cases v <;>
    rw [h] <;> simp only [byte, ofByte?] <;> rw [hrange _ (by omega)] <;> grind

/-- The announcement of a byte tells the byte. -/
theorem byte_of_ofByte? {b : UInt8} (h : ofByte? b = some a) : a.byte = b := by
  have heq {n : Nat} (hn : n = b.toNat) : UInt8.ofNat n = b := by rw [hn, UInt8.ofNat_toNat]
  obtain ⟨-, rfl⟩ | ⟨hle, -, rfl⟩ | ⟨hle, -, rfl⟩ | ⟨hle, -, rfl⟩ := cases_of_ofByte? h
  · exact heq rfl
  · exact heq (by dsimp only; omega)
  · exact heq (by dsimp only; omega)
  · exact heq (by dsimp only; omega)

/-- **What no fewer bytes would spell is announced as the number asks.** -/
theorem eq_ofValue {b : UInt8} (hfirst : ofByte? b = some a) (hmet : a.MetBy trail)
    (hleast : a.least ≤ a.value trail) : a = ofValue (a.value trail) := by
  obtain ⟨hlength, htrail⟩ := hmet
  have hbits := (eq_trailBytes (a := a) htrail).2
  rw [hlength] at hbits
  generalize a.value trail = v at hleast hbits
  unfold ofValue
  -- the first byte bounds the number from above, and the least number from below
  obtain ⟨hb, rfl⟩ | ⟨-, hb, rfl⟩ | ⟨-, hb, rfl⟩ | ⟨-, hb, rfl⟩ := cases_of_ofByte? hfirst <;>
    simp only [least, Nat.pow_zero, Nat.div_one, Nat.pow_one, Nat.reducePow] at hleast hbits ⊢ <;>
    grind

end Announcement

/-! ## Sequences and characters -/

theorem charCode_lt (c : Char) : c.toNat < 0x110000 := by
  have hvalid : c.toNat.isValidChar := c.valid
  omega

/-- The bytes of a character, digit by digit. -/
theorem utf8EncodeChar_eq (c : Char) :
    String.utf8EncodeChar c = (Announcement.ofValue c.toNat).byte
      :: trailBytes (Announcement.ofValue c.toNat).owed c.toNat := by
  have hmax : c.val.toNat < 0x110000 := charCode_lt c
  unfold String.utf8EncodeChar
  show _ = (Announcement.ofValue c.val.toNat).byte
      :: trailBytes (Announcement.ofValue c.val.toNat).owed c.val.toNat
  generalize c.val.toNat = v at hmax
  dsimp only
  obtain ⟨hlt, h⟩ | ⟨hle, hlt, h⟩ | ⟨hle, hlt, h⟩ | ⟨hle, h⟩ := Announcement.ofValue_cases v
  · rw [h, if_pos (by omega)]
    rfl
  · rw [h, if_neg (by omega), if_pos (by omega), Nat.mod_eq_of_lt (by omega)]
    rfl
  · rw [h, if_neg (by omega), if_neg (by omega), if_pos (by omega), Nat.mod_eq_of_lt (by omega)]
    rfl
  · rw [h, if_neg (by omega), if_neg (by omega), if_neg (by omega), Nat.mod_eq_of_lt (by omega)]
    simp only [trailBytes, Nat.div_div_eq_div_mul]
    rfl

/-- **What is encoded is a sequence.** -/
theorem isSequence_utf8EncodeChar (c : Char) : IsSequence (String.utf8EncodeChar c) := by
  rw [utf8EncodeChar_eq]
  have hvalue := Announcement.value_trailBytes (Announcement.bits_ofValue c.toNat)
  refine .intro (Announcement.ofByte?_byte_ofValue (charCode_lt c))
    ⟨length_trailBytes _ _, fun t ht => isTrail_of_mem_trailBytes ht⟩ ?_ ?_
  · rw [hvalue]
    exact Announcement.least_ofValue_le _
  · rw [hvalue]
    exact c.valid

/-- **Every sequence is what is encoded of some character.** -/
theorem IsSequence.exists_eq {bytes : List UInt8} (h : IsSequence bytes) :
    ∃ c : Char, bytes = String.utf8EncodeChar c := by
  obtain ⟨hfirst, hmet, hleast, hscalar⟩ := h
  rename_i b a trail
  have hvalue : (Char.ofNatAux (a.value trail) hscalar).toNat = a.value trail := rfl
  refine ⟨Char.ofNatAux (a.value trail) hscalar, ?_⟩
  rw [utf8EncodeChar_eq, hvalue, ← Announcement.eq_ofValue hfirst hmet hleast,
    Announcement.byte_of_ofByte? hfirst, ← hmet.1, ← (Announcement.eq_trailBytes hmet.2).1]

/-- **Well-formed are the encodings of texts**, and no other bytes. -/
theorem wellFormed_iff {bytes : List UInt8} :
    WellFormed bytes ↔ ∃ text : List Char, bytes = text.flatMap String.utf8EncodeChar := by
  constructor
  · intro h
    induction h with
    | nil => exact ⟨[], rfl⟩
    | cons hbytes _ ih =>
      obtain ⟨c, rfl⟩ := hbytes.exists_eq
      obtain ⟨text, rfl⟩ := ih
      exact ⟨c :: text, rfl⟩
  · rintro ⟨text, rfl⟩
    induction text with
    | nil => exact .nil
    | cons c text ih => exact .cons (isSequence_utf8EncodeChar c) ih

/-! ## Where bytes are ill-formed -/

/-- Bytes begin with a sequence or with a flaw. -/
theorem exists_isSequence_or_flaw (b : UInt8) (rest : List UInt8) :
    (∃ bytes more, b :: rest = bytes ++ more ∧ IsSequence bytes) ∨ Flaw (b :: rest) := by
  cases hfirst : Announcement.ofByte? b with
  | none => exact .inr (.stray hfirst)
  | some a =>
    by_cases hmet : a.MetBy (rest.take a.owed)
    · by_cases hleast : a.least ≤ a.value (rest.take a.owed)
      · by_cases hscalar : (a.value (rest.take a.owed)).isValidChar
        · refine .inl ⟨b :: rest.take a.owed, rest.drop a.owed, ?_,
            .intro hfirst hmet hleast hscalar⟩
          rw [List.cons_append, List.take_append_drop]
        · by_cases hbeyond : 0x10FFFF < a.value (rest.take a.owed)
          · exact .inr (.beyond hfirst hmet hbeyond)
          · exact .inr (.surrogate hfirst hmet (by omega) (by omega))
      · exact .inr (.overlong hfirst hmet (Nat.lt_of_not_le hleast))
    · exact .inr (.cutShort hfirst hmet)

/-- They cannot begin with both. -/
theorem IsSequence.not_flaw {bytes more : List UInt8} (h : IsSequence bytes) :
    ¬ Flaw (bytes ++ more) := by
  obtain ⟨hfirst, hmet, hleast, hscalar⟩ := h
  rename_i b a trail
  -- as many bytes as were announced are the bytes that were found
  have htake : (trail ++ more).take a.owed = trail := List.take_left' hmet.1
  have hannounced {a' : Announcement} (hfirst' : Announcement.ofByte? b = some a') : a' = a :=
    Option.some.inj (hfirst'.symm.trans hfirst)
  intro hflaw
  rw [List.cons_append] at hflaw
  cases hflaw with
  | stray hnone =>
    rw [hfirst] at hnone
    cases hnone
  | cutShort hfirst' hshort =>
    rw [hannounced hfirst', htake] at hshort
    exact hshort hmet
  | overlong hfirst' _ hlong =>
    rw [hannounced hfirst', htake] at hlong
    omega
  | surrogate hfirst' _ hlow hhigh =>
    rw [hannounced hfirst', htake] at hlow hhigh
    omega
  | beyond hfirst' _ hbeyond =>
    rw [hannounced hfirst', htake] at hbeyond
    omega

theorem IsSequence.isTrail_of_mem {b t : UInt8} {trail : List UInt8}
    (h : IsSequence (b :: trail)) (ht : t ∈ trail) : isTrail t = true := by
  obtain ⟨-, hmet, -, -⟩ := h
  exact hmet.2 t ht

/-- The first byte decides how long a sequence is. -/
theorem IsSequence.append_inj {bytes bytes' more more' : List UInt8} (h : IsSequence bytes)
    (h' : IsSequence bytes') (heq : bytes ++ more = bytes' ++ more') :
    bytes = bytes' ∧ more = more' := by
  obtain ⟨hfirst, hmet, -, -⟩ := h
  obtain ⟨hfirst', hmet', -, -⟩ := h'
  obtain ⟨rfl, -⟩ := List.cons.inj heq
  obtain rfl : _ = _ := Option.some.inj (hfirst.symm.trans hfirst')
  exact List.append_inj heq (by simp [hmet.1, hmet'.1])

theorem IsSequence.wellFormed_of_append {bytes rest : List UInt8} (hbytes : IsSequence bytes)
    (h : WellFormed (bytes ++ rest)) : WellFormed rest := by
  generalize hwhole : bytes ++ rest = whole at h
  cases h with
  | nil =>
    obtain ⟨rfl, -⟩ := List.append_eq_nil_iff.1 hwhole
    cases hbytes
  | cons hbytes' hrest' =>
    rw [(hbytes.append_inj hbytes' hwhole).2]
    exact hrest'

theorem WellFormed.of_append {front rest : List UInt8} (hfront : WellFormed front)
    (h : WellFormed (front ++ rest)) : WellFormed rest := by
  induction hfront with
  | nil => exact h
  | cons hbytes _ ih =>
    refine ih ?_
    rw [List.append_assoc] at h
    exact hbytes.wellFormed_of_append h

/-- Nothing well-formed begins with a flaw. -/
theorem Flaw.not_wellFormed {bytes : List UInt8} (h : Flaw bytes) : ¬ WellFormed bytes := by
  rintro (_ | ⟨hbytes, -⟩)
  · cases h
  · exact hbytes.not_flaw h

/-- **Bytes are ill-formed exactly if there is a flaw in them** behind whole sequences. -/
theorem not_wellFormed_iff {bytes : List UInt8} :
    ¬ WellFormed bytes ↔
      ∃ front rest, bytes = front ++ rest ∧ WellFormed front ∧ Flaw rest := by
  constructor
  · intro h
    induction hlength : bytes.length using Nat.strongRecOn generalizing bytes with
    | ind n ih =>
      cases bytes with
      | nil => exact absurd .nil h
      | cons b rest =>
        rcases exists_isSequence_or_flaw b rest with ⟨bytes, more, heq, hbytes⟩ | hflaw
        · -- the flaw is behind the sequence, for otherwise the whole were well-formed
          rw [heq] at h hlength
          have hshorter : more.length < n := by
            cases hbytes
            simp at hlength
            omega
          obtain ⟨front, rest, rfl, hfront, hflaw⟩ :=
            ih _ hshorter (fun hmore => h (.cons hbytes hmore)) rfl
          exact ⟨bytes ++ front, rest, by rw [heq, List.append_assoc], .cons hbytes hfront,
            hflaw⟩
        · exact ⟨[], b :: rest, rfl, .nil, hflaw⟩
  · rintro ⟨front, rest, rfl, hfront, hflaw⟩ h
    exact hflaw.not_wellFormed (hfront.of_append h)

/-- **Nothing in front of a flaw makes up for it**, unless its first byte could continue a
sequence. -/
theorem not_wellFormed_of_flaw {b : UInt8} {rest : List UInt8} (hb : isTrail b = false)
    (hflaw : Flaw (b :: rest)) (front : List UInt8) : ¬ WellFormed (front ++ b :: rest) := by
  intro h
  generalize hwhole : front ++ b :: rest = whole at h
  induction h generalizing front with
  | nil => simp at hwhole
  | cons hbytes hrest ih =>
    rcases List.append_eq_append_iff.1 hwhole with ⟨more, rfl, hmore⟩ | ⟨more, rfl, rfl⟩
    · -- the flaw begins behind the first sequence, with it or inside it
      cases more with
      | nil => exact hflaw.not_wellFormed (hmore ▸ hrest)
      | cons c more =>
        obtain ⟨rfl, -⟩ := List.cons.inj hmore
        cases front with
        | nil => exact hbytes.not_flaw (hmore ▸ hflaw)
        | cons b' front =>
          have := hbytes.isTrail_of_mem (List.mem_append_right front List.mem_cons_self)
          rw [hb] at this
          cases this
    · exact ih more rfl

/-- The bytes that would spell the first surrogate. -/
example (front : List UInt8) : ¬ WellFormed (front ++ [0xED, 0xA0, 0x80]) :=
  not_wellFormed_of_flaw rfl
    (.surrogate rfl ⟨rfl, by decide +kernel⟩ (by decide) (by decide)) front

end WriteGate.Text
