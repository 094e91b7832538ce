import Mathlib.Data.List.TakeWhile
import WriteGate.Proofs.CommandLine.Number

/-!
# Arguments in good order

The reading goes over the arguments one by one and keeps what it has not judged
yet. What it accepts can be said without that: arguments in good order are
items, each of one or two arguments, and perhaps a separator with anything
behind it. An operand or a value in an argument of its own must be *plain*, that
is, a single hyphen or without a hyphen at its front, for otherwise it would be
read as something else. Then arguments are in good order in one way at most, and
no operand can be taken for a value (`ArgumentList.spelling_injective`).

Two observations lead to such lists. What is pending may be judged at once, since a
later judgement makes a difference to the mistake that is reported but not to
success (`readArguments_eq_ok_iff_settle`); and an option that waits for its
value takes the next argument, whatever it is, if it is plain
(`readArguments_waiting_eq_ok_iff`). So one item after the other can be taken off
the front, and only items can.
-/

namespace WriteGate.CommandLine

/-! ## Arguments and what they are -/

/-- **An argument that can be an operand or the value of an option**: a single hyphen, or one
that does not begin with a hyphen. -/
def IsPlain (argument : String) : Prop := argument = "-" ∨ argument.toList.head? ≠ some '-'

/-- Plain arguments have nothing behind a hyphen at their front. -/
theorem isPlain_iff {argument : String} :
    IsPlain argument ↔ ∀ letter rest, argument.toList ≠ '-' :: letter :: rest := by
  unfold IsPlain
  rw [← String.toList_inj]
  show argument.toList = ['-'] ∨ _ ↔ _
  generalize argument.toList = text
  cases text with
  | nil => simp
  | cons c text => cases text <;> simp [Decidable.em]

namespace Argument

/-- **An argument is an operand when it is plain.** -/
theorem ofString_eq_operand_iff {argument text : String} :
    ofString argument = .operand text ↔ argument = text ∧ IsPlain argument := by
  rw [isPlain_iff]
  unfold ofString
  split
  · next h => exact iff_of_false (fun hop => by cases hop) fun hplain => hplain.2 _ _ h
  · next h => exact iff_of_false (fun hop => by cases hop) fun hplain => hplain.2 _ _ h
  · next h => exact iff_of_false (fun hop => by cases hop) fun hplain => hplain.2 _ _ h
  · next h =>
    rw [operand.injEq]
    exact (and_iff_left fun letter rest => h letter rest).symm

theorem ofString_eq_separator_iff {argument : String} :
    ofString argument = .separator ↔ argument = "--" := by
  constructor
  · intro h
    unfold ofString at h
    split at h
    · next hspelling => exact String.toList_inj.1 hspelling
    all_goals cases h
  · rintro rfl
    decide

theorem ofString_attached (s : Setting) (value : String) :
    ofString ("--" ++ s.name ++ "=" ++ value) = .long s.name (some value) := by
  cases s <;> simp [ofString, Setting.name, String.toList_append]

theorem ofString_name (s : Setting) : ofString ("--" ++ s.name) = .long s.name none := by
  cases s <;> decide

/-- A text with an equals sign in it is cut at the first one. -/
theorem eq_takeWhile_append_of_contains {text : List Char} (h : text.contains '=' = true) :
    text = text.takeWhile (· != '=') ++ '=' :: (text.dropWhile (· != '=')).drop 1 := by
  induction text with
  | nil => cases h
  | cons c text ih =>
    by_cases hc : c = '='
    · simp [hc]
    · have htext : text.contains '=' = true := by
        simpa [Ne.symm hc] using h
      simpa [hc] using ih htext

/-- **A name behind two hyphens is spelled with the value that is attached to it**, behind an
equals sign. -/
theorem eq_of_ofString_eq_long {argument name : String} {value : Option String}
    (h : ofString argument = .long name value) :
    argument = "--" ++ name ++ value.elim "" ("=" ++ ·) := by
  unfold ofString at h
  split at h
  · cases h
  · next rest _ hspelling =>
    obtain ⟨rfl, rfl⟩ := Argument.long.inj h
    rw [← String.toList_inj, hspelling]
    split
    · next hequals =>
      simp only [Option.elim_some, String.toList_append, String.toList_ofList]
      show '-' :: '-' :: rest = ['-', '-'] ++ _ ++ (['='] ++ _)
      rw [List.append_assoc, List.singleton_append, ← eq_takeWhile_append_of_contains hequals]
      rfl
    · next hequals =>
      simp only [Option.elim_none, String.append_empty, String.toList_append, String.toList_ofList]
      have huncut : ∀ c ∈ rest, (c != '=') = true := fun c hc => by
        simpa using fun heq : c = '=' => hequals (List.contains_iff_mem.2 (heq ▸ hc))
      rw [List.takeWhile_eq_self_iff.2 huncut]
      rfl
  · cases h
  · cases h

end Argument

/-! ## Items -/

/-- **An item of the arguments**: an operand, or an option with its value, which is either
attached to it or stands in an argument of its own. -/
inductive Item
  /-- An operand. -/
  | operand (text : String)
  /-- An option with its value attached. -/
  | attached (s : Setting) (value : String)
  /-- An option, and its value in the next argument. -/
  | apart (s : Setting) (value : String)

namespace Item

/-- The arguments that spell an item. -/
def spelling : Item → List String
  | operand text => [text]
  | attached s value => ["--" ++ s.name ++ "=" ++ value]
  | apart s value => ["--" ++ s.name, value]

/-- **What stands in an argument of its own is plain.** -/
def StandsApart : Item → Prop
  | operand text => IsPlain text
  | attached _ _ => True
  | apart _ value => IsPlain value

/-- The operand that an item is. -/
def operand? : Item → Option String
  | operand text => some text
  | attached _ _ => none
  | apart _ _ => none

/-- The value that an item gives for an option. -/
def given? (s : Setting) : Item → Option String
  | operand _ => none
  | attached t value => if t = s then some value else none
  | apart t value => if t = s then some value else none

/-- An item as something that was read and is to be judged. -/
def pending : Item → Pending
  | operand text => .operands [text]
  | attached s value => .setting s (some value)
  | apart s value => .setting s (some value)

theorem spelling_ne_nil (item : Item) : item.spelling ≠ [] := by
  cases item <;> exact List.cons_ne_nil _ _

end Item

/-- **A list of arguments in good order**: items, and if there is a separator behind them, the
operands behind it. -/
structure ArgumentList where
  /-- The items. -/
  items : List Item
  /-- What stands behind the separator, if there is one. -/
  behind : Option (List String)
  /-- Operands and values in arguments of their own are plain. Behind the separator they may
  be anything. -/
  standsApart : ∀ item ∈ items, item.StandsApart

namespace ArgumentList

/-- **The arguments themselves.** -/
def spelling (l : ArgumentList) : List String :=
  l.items.flatMap Item.spelling ++ l.behind.elim [] ("--" :: ·)

/-- All operands, in order. -/
def operands (l : ArgumentList) : List String :=
  l.items.filterMap Item.operand? ++ l.behind.getD []

/-- The values given for an option, in order. -/
def given (l : ArgumentList) (s : Setting) : List String := l.items.filterMap (Item.given? s)

end ArgumentList

/-! ## No list can be taken in two ways -/

theorem Setting.name_injective : Function.Injective Setting.name := by
  intro s t h
  cases s <;> cases t <;> first | rfl | exact absurd h (by decide)

namespace Item

/-- What the first argument of an item is. -/
def head : Item → Argument
  | operand text => .operand text
  | attached s value => .long s.name (some value)
  | apart s _ => .long s.name none

/-- An item begins with an argument of its own kind, which is no separator. -/
theorem exists_spelling_eq_cons {item : Item} (h : item.StandsApart) :
    ∃ argument rest, item.spelling = argument :: rest
      ∧ Argument.ofString argument = item.head ∧ argument ≠ "--" := by
  have hseparator : ∀ argument, Argument.ofString argument = item.head → argument ≠ "--" := by
    intro argument hargument hspelling
    rw [Argument.ofString_eq_separator_iff.2 hspelling] at hargument
    cases item <;> cases hargument
  cases item with
  | operand text =>
    have hhead := Argument.ofString_eq_operand_iff.2 ⟨rfl, h⟩
    exact ⟨_, _, rfl, hhead, hseparator _ hhead⟩
  | attached s value =>
    have hhead := Argument.ofString_attached s value
    exact ⟨_, _, rfl, hhead, hseparator _ hhead⟩
  | apart s value =>
    have hhead := Argument.ofString_name s
    exact ⟨_, _, rfl, hhead, hseparator _ hhead⟩

/-- **An item can be told from what stands behind it.** -/
theorem spelling_append_inj {item other : Item} {rest rest' : List String}
    (h : item.StandsApart) (h' : other.StandsApart)
    (heq : item.spelling ++ rest = other.spelling ++ rest') : item = other ∧ rest = rest' := by
  have hhead : item.head = other.head := by
    obtain ⟨argument, tail, hspelling, hargument, -⟩ := exists_spelling_eq_cons h
    obtain ⟨argument', tail', hspelling', hargument', -⟩ := exists_spelling_eq_cons h'
    rw [hspelling, hspelling'] at heq
    obtain ⟨rfl, -⟩ := List.cons_eq_cons.1 heq
    exact hargument.symm.trans hargument'
  cases item with
  | operand text =>
    cases other with
    | operand text' =>
      obtain ⟨rfl, rfl⟩ := List.cons_eq_cons.1 heq
      exact ⟨rfl, rfl⟩
    | attached s value => cases hhead
    | apart s value => cases hhead
  | attached s value =>
    cases other with
    | operand text => cases hhead
    | attached s' value' =>
      obtain ⟨hname, hvalue⟩ := Argument.long.inj hhead
      obtain rfl := Setting.name_injective hname
      obtain rfl := Option.some.inj hvalue
      exact ⟨rfl, (List.cons_eq_cons.1 heq).2⟩
    | apart s' value' => cases (Argument.long.inj hhead).2
  | apart s value =>
    cases other with
    | operand text => cases hhead
    | attached s' value' => cases (Argument.long.inj hhead).2
    | apart s' value' =>
      obtain rfl := Setting.name_injective (Argument.long.inj hhead).1
      obtain ⟨rfl, rfl⟩ := List.cons_eq_cons.1 (List.cons_eq_cons.1 heq).2
      exact ⟨rfl, rfl⟩

end Item

namespace ArgumentList

/-- What stands behind the items does not begin with an item. -/
theorem spelling_append_ne_behind {item : Item} (h : item.StandsApart) (rest : List String)
    (behind : Option (List String)) : item.spelling ++ rest ≠ behind.elim [] ("--" :: ·) := by
  obtain ⟨argument, tail, hspelling, -, hne⟩ := Item.exists_spelling_eq_cons h
  rw [hspelling]
  cases behind with
  | none => exact List.cons_ne_nil _ _
  | some texts => exact fun heq => hne (List.cons_eq_cons.1 heq).1

/-- **Arguments are in good order in one way.** No operand of a list is the value of an option
in another one with the same arguments. -/
theorem spelling_injective : Function.Injective spelling := by
  rintro ⟨items, behind, hitems⟩ ⟨others, behind', hothers⟩ heq
  unfold spelling at heq
  dsimp only at heq
  suffices items = others ∧ behind = behind' by
    obtain ⟨rfl, rfl⟩ := this
    rfl
  induction items generalizing others with
  | nil =>
    cases others with
    | nil =>
      refine ⟨rfl, ?_⟩
      cases behind <;> cases behind' <;> simp_all
    | cons other others =>
      rw [List.flatMap_cons, List.append_assoc] at heq
      exact absurd heq.symm (spelling_append_ne_behind (List.forall_mem_cons.1 hothers).1 _ _)
  | cons item items ih =>
    rw [List.forall_mem_cons] at hitems
    rw [List.flatMap_cons, List.append_assoc] at heq
    cases others with
    | nil => exact absurd heq (spelling_append_ne_behind hitems.1 _ _)
    | cons other others =>
      rw [List.forall_mem_cons] at hothers
      rw [List.flatMap_cons, List.append_assoc] at heq
      obtain ⟨rfl, hrest⟩ := Item.spelling_append_inj hitems.1 hothers.1 heq
      obtain ⟨rfl, hbehind⟩ := ih hitems.2 others hothers.2 hrest
      exact ⟨rfl, hbehind⟩

end ArgumentList

/-! ## Reading items -/

/-- Judges items one after the other. -/
def Draft.settleAll (d : Draft) (items : List Item) : Except UsageError Draft :=
  items.foldlM (fun d item => d.settle item.pending) d

section Reading

variable {d e : Draft} {pending : Pending} {rest : List String}

theorem mistaken_eq_ok_iff {α : Type} {result : Except UsageError α} {a : α} :
    mistaken result = .ok a ↔ result = .ok a := by
  cases result with
  | error e => exact iff_of_false (fun h => by cases h) (fun h => by cases h)
  | ok b =>
    show Except.ok b = Except.ok a ↔ _
    rw [Except.ok.injEq, Except.ok.injEq]

/-- **A success goes back to the successes on the way to it.** -/
theorem bind_eq_ok_iff {ε α β : Type} {result : Except ε α} {f : α → Except ε β} {b : β} :
    result.bind f = .ok b ↔ ∃ a, result = .ok a ∧ f a = .ok b := by
  cases result with
  | error e => exact iff_of_false (fun h => by cases h) (fun ⟨a, h, _⟩ => by cases h)
  | ok a =>
    constructor
    · exact fun h => ⟨a, rfl, h⟩
    · rintro ⟨a, h, hf⟩
      cases h
      exact hf

theorem settle_operands_eq_ok_iff {texts : List String} :
    d.settle (.operands texts) = .ok e ↔ "" ∉ texts ∧ e = { d with paths := d.paths ++ texts } := by
  have hempty : texts.any String.isEmpty = true ↔ "" ∈ texts := by
    simp [List.any_eq_true]
  show (if texts.any String.isEmpty then _ else _) = _ ↔ _
  split
  · next h => exact iff_of_false (fun h => by cases h) fun hnot => hnot.1 (hempty.1 h)
  · next h =>
    rw [Except.ok.injEq, ← hempty]
    exact ⟨fun heq => ⟨h, heq.symm⟩, fun hand => hand.2.symm⟩

theorem settle_operands_nil : d.settle (.operands []) = .ok d :=
  settle_operands_eq_ok_iff.2 ⟨List.not_mem_nil, by rw [List.append_nil]⟩

/-- Operands may be judged one after the other. -/
theorem settle_operands_append_eq_ok_iff {front back : List String} :
    d.settle (.operands (front ++ back)) = .ok e ↔
      ∃ d', d.settle (.operands front) = .ok d' ∧ d'.settle (.operands back) = .ok e := by
  simp only [settle_operands_eq_ok_iff, List.mem_append, not_or]
  constructor
  · rintro ⟨⟨hfront, hback⟩, rfl⟩
    exact ⟨_, ⟨hfront, rfl⟩, hback, by simp only [List.append_assoc]⟩
  · rintro ⟨_, ⟨hfront, rfl⟩, hback, rfl⟩
    exact ⟨⟨hfront, hback⟩, by simp only [List.append_assoc]⟩

theorem settleAll_cons_eq_ok_iff {item : Item} {items : List Item} :
    d.settleAll (item :: items) = .ok e ↔
      ∃ d', d.settle item.pending = .ok d' ∧ d'.settleAll items = .ok e := by
  rw [Draft.settleAll, List.foldlM_cons]
  exact bind_eq_ok_iff

/-- What happens behind what is pending happens behind its judgement. -/
theorem bind_settle_eq_ok_iff {α : Type} {f : Draft → Except Stop α} {a : α} :
    (mistaken (d.settle pending)).bind f = .ok a ↔
      ∃ d', d.settle pending = .ok d' ∧ f d' = .ok a := by
  simp only [bind_eq_ok_iff, mistaken_eq_ok_iff]

theorem settle_nothing : d.settle .nothing = .ok d := rfl

/-- In front of anything but an operand, what is pending is judged before the argument is read. -/
theorem readArguments_eq_ok_iff_settle_of_ne_operand {argument : String}
    (hargument : ∀ text, Argument.ofString argument ≠ .operand text) :
    readArguments d pending (argument :: rest) = .ok e ↔
      ∃ d', d.settle pending = .ok d' ∧ readArguments d' .nothing (argument :: rest) = .ok e := by
  simp only [readArguments]
  cases hkind : Argument.ofString argument with
  | separator =>
    simp only [mistaken_eq_ok_iff, settle_nothing]
    exact bind_eq_ok_iff
  | long name value =>
    dsimp only
    cases Flag.all.find? (·.name == name) with
    | some flag =>
      -- a flag asks for information, or has a value that it does not take
      cases value with
      | none => simp only [bind_eq_ok_iff, reduceCtorEq, and_false, exists_const]
      | some value => simp only [reduceCtorEq, and_false, exists_const]
    | none =>
      cases Setting.all.find? (·.name == name) with
      | none => simp only [reduceCtorEq, and_false, exists_const]
      | some s =>
        cases value with
        | none => exact bind_settle_eq_ok_iff
        | some value =>
          simp only [bind_eq_ok_iff, mistaken_eq_ok_iff, settle_nothing, Except.ok.injEq,
            exists_eq_left']
          constructor
          · rintro ⟨d'', ⟨d', hsettle, hset⟩, hread⟩
            exact ⟨d', hsettle, d'', hset, hread⟩
          · rintro ⟨d', hsettle, d'', hset, hread⟩
            exact ⟨d'', ⟨d', hsettle, hset⟩, hread⟩
  | short letter =>
    dsimp only
    cases Flag.all.find? (·.letter == letter) with
    | none => simp only [reduceCtorEq, and_false, exists_const]
    | some flag => simp only [bind_eq_ok_iff, reduceCtorEq, and_false, exists_const]
  | operand text => exact absurd hkind (hargument text)

/-- **What is pending may be judged at once**, as far as success is concerned, if it is not an
option that waits for its value. -/
theorem readArguments_eq_ok_iff_settle {arguments : List String}
    (hpending : ∀ s, pending ≠ .setting s none) :
    readArguments d pending arguments = .ok e ↔
      ∃ d', d.settle pending = .ok d' ∧ readArguments d' .nothing arguments = .ok e := by
  induction arguments generalizing d pending with
  | nil =>
    simp only [readArguments, mistaken_eq_ok_iff, settle_nothing, Except.ok.injEq, exists_eq_right]
  | cons argument rest ih =>
    cases hargument : Argument.ofString argument with
    | operand text =>
      have hnext : ∀ d', readArguments d' .nothing (argument :: rest)
          = readArguments d' (.operands [text]) rest := by
        intro d'
        rw [readArguments, hargument]
        rfl
      simp only [hnext]
      rw [readArguments, hargument]
      cases pending with
      | nothing => exact bind_settle_eq_ok_iff
      | operands texts =>
        have hone : ∀ d', readArguments d' (.operands [text]) rest = .ok e ↔
            ∃ d'', d'.settle (.operands [text]) = .ok d''
              ∧ readArguments d'' .nothing rest = .ok e := fun d' => ih (by simp)
        dsimp only
        rw [ih (by simp)]
        simp only [hone, settle_operands_append_eq_ok_iff]
        constructor
        · rintro ⟨d'', ⟨d', hfront, hback⟩, hread⟩
          exact ⟨d', hfront, d'', hback, hread⟩
        · rintro ⟨d', hfront, d'', hback, hread⟩
          exact ⟨d'', ⟨d', hfront, hback⟩, hread⟩
      | setting s value =>
        cases value with
        | none => exact absurd rfl (hpending s)
        | some value => exact bind_settle_eq_ok_iff
    | _ => exact readArguments_eq_ok_iff_settle_of_ne_operand (by simp [hargument])

/-- **An option that waits for its value** takes the next argument for it, which must be
plain. -/
theorem readArguments_waiting_eq_ok_iff {s : Setting} {arguments : List String} :
    readArguments d (.setting s none) arguments = .ok e ↔
      ∃ value rest, arguments = value :: rest ∧ IsPlain value
        ∧ ∃ d', d.set s value = .ok d' ∧ readArguments d' .nothing rest = .ok e := by
  cases arguments with
  | nil => exact iff_of_false (fun h => by cases h) (fun ⟨_, _, h, _⟩ => by cases h)
  | cons argument rest =>
    by_cases hplain : IsPlain argument
    · rw [readArguments, Argument.ofString_eq_operand_iff.2 ⟨rfl, hplain⟩]
      dsimp only
      rw [readArguments_eq_ok_iff_settle (by simp)]
      constructor
      · exact fun h => ⟨argument, rest, rfl, hplain, h⟩
      · rintro ⟨_, _, hcons, -, h⟩
        obtain ⟨rfl, rfl⟩ := List.cons_eq_cons.1 hcons
        exact h
    · refine iff_of_false (fun h => ?_) ?_
      · -- the option is judged without a value
        have hkind : ∀ text, Argument.ofString argument ≠ .operand text :=
          fun _ htext => hplain (Argument.ofString_eq_operand_iff.1 htext).2
        obtain ⟨d', hsettle, -⟩ := (readArguments_eq_ok_iff_settle_of_ne_operand hkind).1 h
        cases hsettle
      · rintro ⟨_, _, hcons, hvalue, -⟩
        obtain ⟨rfl, -⟩ := List.cons_eq_cons.1 hcons
        exact hplain hvalue

theorem find?_name (s : Setting) :
    Flag.all.find? (·.name == s.name) = none ∧ Setting.all.find? (·.name == s.name) = some s := by
  cases s <;> decide

/-- **An item is read as what it gives**, and then what stands behind it. -/
theorem readArguments_item_eq_ok_iff {item : Item} (h : item.StandsApart) :
    readArguments d .nothing (item.spelling ++ rest) = .ok e ↔
      ∃ d', d.settle item.pending = .ok d' ∧ readArguments d' .nothing rest = .ok e := by
  cases item with
  | operand text =>
    show readArguments d .nothing (text :: rest) = _ ↔ _
    rw [readArguments, Argument.ofString_eq_operand_iff.2 ⟨rfl, h⟩]
    exact readArguments_eq_ok_iff_settle (by simp)
  | attached s value =>
    show readArguments d .nothing (("--" ++ s.name ++ "=" ++ value) :: rest) = _ ↔ _
    obtain ⟨hflag, hsetting⟩ := find?_name s
    rw [readArguments, Argument.ofString_attached]
    simp only [hflag, hsetting]
    show (mistaken (d.settle (.setting s (some value)))).bind _ = _ ↔ _
    exact bind_settle_eq_ok_iff
  | apart s value =>
    show readArguments d .nothing (("--" ++ s.name) :: value :: rest) = _ ↔ _
    obtain ⟨hflag, hsetting⟩ := find?_name s
    rw [readArguments, Argument.ofString_name]
    simp only [hflag, hsetting]
    show readArguments d (.setting s none) (value :: rest) = _ ↔ _
    rw [readArguments_waiting_eq_ok_iff]
    constructor
    · rintro ⟨_, _, hcons, -, hread⟩
      obtain ⟨rfl, rfl⟩ := List.cons_eq_cons.1 hcons
      exact hread
    · exact fun hread => ⟨value, rest, rfl, h, hread⟩

/-- **Only items are read.** Arguments that are accepted begin with an item, or with the
separator. -/
theorem exists_item_of_readArguments_eq_ok {argument : String}
    (h : readArguments d .nothing (argument :: rest) = .ok e) :
    argument = "--" ∨ ∃ (item : Item) (behind : List String),
      item.StandsApart ∧ argument :: rest = item.spelling ++ behind := by
  rw [readArguments] at h
  cases hargument : Argument.ofString argument with
  | separator => exact .inl (Argument.ofString_eq_separator_iff.1 hargument)
  | operand text =>
    obtain ⟨-, hplain⟩ := Argument.ofString_eq_operand_iff.1 hargument
    exact .inr ⟨.operand argument, rest, hplain, rfl⟩
  | short letter =>
    -- a letter is a flag or unknown, and neither is accepted
    rw [hargument] at h
    dsimp only at h
    split at h <;> cases h
  | long name value =>
    have hspelling := Argument.eq_of_ofString_eq_long hargument
    rw [hargument] at h
    dsimp only at h
    split at h
    · cases h
    · cases h
    · next s value _ hfind =>
      obtain rfl : s.name = name := by simpa using List.find?_some hfind
      refine .inr ⟨.attached s value, rest, trivial, ?_⟩
      rw [hspelling, Option.elim_some, ← String.append_assoc]
      rfl
    · next s _ hfind =>
      obtain rfl : s.name = name := by simpa using List.find?_some hfind
      obtain ⟨value, behind, rfl, hplain, -⟩ := readArguments_waiting_eq_ok_iff.1 h
      refine .inr ⟨.apart s value, behind, hplain, ?_⟩
      rw [hspelling, Option.elim_none, String.append_empty]
      rfl
    · cases h

/-- The separator ends the items, and what stands behind it is judged as it is. -/
theorem readArguments_separator_eq_ok_iff :
    readArguments d .nothing ("--" :: rest) = .ok e ↔ d.settle (.operands rest) = .ok e := by
  rw [readArguments, Argument.ofString_eq_separator_iff.2 rfl]
  exact mistaken_eq_ok_iff

/-- **A list of arguments in good order is read** as its items in turn, and then the operands
behind the separator. By induction on the items. -/
theorem readArguments_spelling_eq_ok_iff {items : List Item} {behind : Option (List String)}
    (h : ∀ item ∈ items, item.StandsApart) :
    readArguments d .nothing (items.flatMap Item.spelling ++ behind.elim [] ("--" :: ·)) = .ok e ↔
      ∃ d', d.settleAll items = .ok d' ∧ d'.settle (.operands (behind.getD [])) = .ok e := by
  induction items generalizing d with
  | nil =>
    have hnil : d.settleAll [] = .ok d := rfl
    simp only [List.flatMap_nil, List.nil_append, hnil, Except.ok.injEq, exists_eq_left']
    cases behind with
    | none =>
      show mistaken (d.settle .nothing) = _ ↔ d.settle (.operands []) = _
      rw [mistaken_eq_ok_iff, settle_nothing, settle_operands_nil]
    | some texts => exact readArguments_separator_eq_ok_iff
  | cons item items ih =>
    obtain ⟨hitem, hitems⟩ := List.forall_mem_cons.1 h
    rw [List.flatMap_cons, List.append_assoc, readArguments_item_eq_ok_iff hitem]
    simp only [ih hitems, settleAll_cons_eq_ok_iff]
    constructor
    · rintro ⟨d', hitem, d'', hitems, hbehind⟩
      exact ⟨d'', ⟨d', hitem, hitems⟩, hbehind⟩
    · rintro ⟨d'', ⟨d', hitem, hitems⟩, hbehind⟩
      exact ⟨d', hitem, d'', hitems, hbehind⟩

/-- **Arguments that are read are in good order.** By induction on their number: an item is at
least one argument. -/
theorem exists_spelling_of_readArguments_eq_ok {arguments : List String}
    (h : readArguments d .nothing arguments = .ok e) :
    ∃ l : ArgumentList, l.spelling = arguments := by
  induction hlength : arguments.length using Nat.strongRecOn generalizing d arguments with
  | _ length ih =>
    cases arguments with
    | nil => exact ⟨⟨[], none, by simp⟩, rfl⟩
    | cons argument rest =>
      obtain rfl | ⟨item, behind, hitem, hcons⟩ := exists_item_of_readArguments_eq_ok h
      · exact ⟨⟨[], some rest, by simp⟩, rfl⟩
      · rw [hcons] at h hlength
        obtain ⟨d', -, hread⟩ := (readArguments_item_eq_ok_iff hitem).1 h
        have hpos := List.length_pos_iff.2 item.spelling_ne_nil
        have hless : behind.length < length := by
          rw [← hlength, List.length_append]
          omega
        obtain ⟨l, rfl⟩ := ih _ hless hread rfl
        refine ⟨⟨item :: l.items, l.behind, List.forall_mem_cons.2 ⟨hitem, l.standsApart⟩⟩, ?_⟩
        rw [hcons, ArgumentList.spelling, ArgumentList.spelling, List.flatMap_cons,
          List.append_assoc]

/-- **Arguments are read exactly when they are in good order** and each item is accepted in its
turn, and then the operands behind the separator. -/
theorem readArguments_eq_ok_iff {arguments : List String} :
    readArguments d .nothing arguments = .ok e ↔
      ∃ l : ArgumentList, l.spelling = arguments ∧ ∃ d', d.settleAll l.items = .ok d'
        ∧ d'.settle (.operands (l.behind.getD [])) = .ok e := by
  constructor
  · intro h
    obtain ⟨l, rfl⟩ := exists_spelling_of_readArguments_eq_ok h
    exact ⟨l, rfl, (readArguments_spelling_eq_ok_iff l.standsApart).1 h⟩
  · rintro ⟨l, rfl, h⟩
    exact (readArguments_spelling_eq_ok_iff l.standsApart).2 h

end Reading

end WriteGate.CommandLine
