import WriteGate.Proofs.Run.Blame
import WriteGate.Proofs.Text.WellFormed

/-!
# What decoding accepts

Decoding accepts the bytes that spell a text, and refuses all others. That much
can be read off its definition. The point of this module is to say the same of
the bytes themselves: the accepted ones are the well-formed ones, and in the
refused ones there is a flaw, behind whole sequences, that can be pointed at. A
flaw is as bad at the end of a long file as it is in front.

This is the side on which strictness matters. Bytes that were wrongly refused
would fail a harmless file, but bytes that were wrongly accepted would be searched
as a text that nobody wrote.
-/

namespace WriteGate

open Text

/-- **Bytes that spell a text**: those of its characters, one behind the other. -/
def Spells (bytes : ByteArray) (text : List Char) : Prop :=
  bytes.data.toList = text.flatMap String.utf8EncodeChar

/-- Bytes spell a text exactly if they are its encoding. -/
theorem spells_iff {bytes : ByteArray} {text : List Char} :
    Spells bytes text ↔ bytes = text.utf8Encode := by
  constructor
  · intro h
    refine ByteArray.ext (Array.toList_inj.1 ?_)
    rw [List.utf8Encode, List.toList_data_toByteArray]
    exact h
  · rintro rfl
    exact List.toList_data_toByteArray

theorem Spells.unique {bytes : ByteArray} {text text' : List Char} (h : Spells bytes text)
    (h' : Spells bytes text') : text = text' :=
  utf8Encode_injective ((spells_iff.1 h).symm.trans (spells_iff.1 h'))

/-- Well-formed bytes are those that spell a text. -/
theorem exists_spells_iff {bytes : ByteArray} :
    (∃ text, Spells bytes text) ↔ WellFormed bytes.data.toList :=
  wellFormed_iff.symm

namespace Content

variable {bytes : ByteArray}

/-- **Bytes are decoded to what they spell**, with line feeds. -/
theorem ofBytes_of_spells {text : List Char} (h : Spells bytes text) :
    ofBytes bytes = .text (String.ofList (normalize text)) := by
  rw [spells_iff.1 h]
  exact ofBytes_utf8Encode text

theorem ofBytes_of_not_spells (h : ¬ ∃ text, Spells bytes text) :
    ofBytes bytes = .undecodable := by
  exact ofBytes_of_not_isValidUTF8 fun ⟨s, hs⟩ => h ⟨s, spells_iff.2 hs⟩

theorem ofBytes_eq_text_iff {content : String} :
    ofBytes bytes = .text content ↔
      ∃ text, Spells bytes text ∧ content = String.ofList (normalize text) := by
  by_cases h : ∃ text, Spells bytes text
  · obtain ⟨text, htext⟩ := h
    rw [ofBytes_of_spells htext, Content.text.injEq]
    constructor
    · exact fun heq => ⟨text, htext, heq.symm⟩
    · rintro ⟨text', htext', rfl⟩
      rw [htext.unique htext']
  · rw [ofBytes_of_not_spells h]
    constructor
    · intro heq
      cases heq
    · exact fun ⟨s, hs, _⟩ => absurd ⟨s, hs⟩ h

theorem ofBytes_eq_undecodable_iff :
    ofBytes bytes = .undecodable ↔ ¬ ∃ text, Spells bytes text := by
  constructor
  · rintro heq ⟨text, htext⟩
    rw [ofBytes_of_spells htext] at heq
    cases heq
  · exact ofBytes_of_not_spells

end Content

/-- **Decoding is strict.** Bytes are decoded exactly if they spell a text, and then to this
text, of which there is only one, with line feeds; these are the well-formed bytes. In
bytes that are not decoded there is a flaw behind whole sequences, wherever that is: a
byte that begins nothing, or a sequence that is cut short, has too many bytes, or spells
a surrogate or a number beyond the last scalar value. Unless it is a byte that could
continue a sequence, it does not even matter what stands in front. -/
theorem decoding_is_strict :
    (∀ bytes : ByteArray,
      (∀ content, Content.ofBytes bytes = .text content ↔
        ∃ text, Spells bytes text ∧ content = String.ofList (normalize text))
      ∧ (Content.ofBytes bytes = .undecodable ↔ ¬ ∃ text, Spells bytes text)
      ∧ (∀ text text', Spells bytes text → Spells bytes text' → text = text')
      ∧ ((∃ content, Content.ofBytes bytes = .text content) ↔ WellFormed bytes.data.toList)
      ∧ (Content.ofBytes bytes = .undecodable ↔
        ∃ front rest, bytes.data.toList = front ++ rest ∧ WellFormed front ∧ Flaw rest))
    ∧ (∀ text : List Char,
      Content.ofBytes text.utf8Encode = .text (String.ofList (normalize text)))
    ∧ ∀ front b rest, isTrail b = false → Flaw (b :: rest) →
      Content.ofBytes (front ++ b :: rest).toByteArray = .undecodable := by
  have hundecodable (bytes : ByteArray) :
      Content.ofBytes bytes = .undecodable ↔ ¬ WellFormed bytes.data.toList := by
    rw [Content.ofBytes_eq_undecodable_iff, exists_spells_iff]
  refine ⟨fun bytes => ⟨fun content => Content.ofBytes_eq_text_iff,
    Content.ofBytes_eq_undecodable_iff, fun text text' h h' => h.unique h', ?_, ?_⟩,
    Content.ofBytes_utf8Encode, fun front b rest hb hflaw => ?_⟩
  · rw [← exists_spells_iff]
    constructor
    · rintro ⟨content, hcontent⟩
      obtain ⟨text, htext, -⟩ := Content.ofBytes_eq_text_iff.1 hcontent
      exact ⟨text, htext⟩
    · exact fun ⟨text, htext⟩ => ⟨_, Content.ofBytes_of_spells htext⟩
  · rw [hundecodable, not_wellFormed_iff]
  · rw [hundecodable, List.toList_data_toByteArray]
    exact not_wellFormed_of_flaw hb hflaw front

/-- A surrogate behind a byte that waits for another one, with more behind it. -/
theorem undecodable_surrogate :
    Flaw [0xED, 0xA0, 0x80, 0x61]
      ∧ Content.ofBytes ([0xC3] ++ [0xED, 0xA0, 0x80, 0x61] : List UInt8).toByteArray
        = .undecodable := by
  have hflaw : Flaw [0xED, 0xA0, 0x80, 0x61] :=
    .surrogate rfl ⟨rfl, by decide +kernel⟩ (by decide) (by decide)
  exact ⟨hflaw, decoding_is_strict.2.2 _ _ _ rfl hflaw⟩

end WriteGate
