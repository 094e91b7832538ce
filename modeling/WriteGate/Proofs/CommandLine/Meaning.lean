import WriteGate.Proofs.CommandLine.Grammar

/-!
# What arguments mean

Items are judged one after the other, and each judgement depends on a draft that
the items in front have left. What becomes of a draft in the end is nevertheless
said without the order: its paths grow by the operands, and each option looks
at the values given for it and at nothing else. A value can be given if none was
given before, and so over a whole list there is at most one.

`Draft.Takes` says this of the draft before and the draft after, for any part of
a list, and is put together from the parts (`Draft.takes_append`). Behind the
blank draft it becomes `ArgumentList.Means`, which speaks of settings and of the
arguments alone.
-/

namespace WriteGate.CommandLine

theorem Format.ofName?_eq_some_iff {word : String} {format : Format} :
    Format.ofName? word = some format ↔ word = format.name := by
  constructor
  · intro h
    unfold ofName? at h
    have hname := List.find?_some h
    rw [beq_iff_eq] at hname
    exact hname.symm
  · rintro rfl
    cases format <;> decide

/-! ## One option -/

section Given

variable {α : Type} {Reads : String → α → Prop} {before after : Option α}

/-- **What the values given for an option make of it**, where `Reads` is the reading of one
value. Without a value it stays as it was. One value is read, if there was none before; and
there is no second. -/
inductive Given (Reads : String → α → Prop) : Option α → List String → Option α → Prop
  /-- Nothing is given. -/
  | nothing {before : Option α} : Given Reads before [] before
  /-- A value is given for the first time. -/
  | value {value : String} {x : α} (hreads : Reads value x) : Given Reads none [value] (some x)

theorem given_nil_iff : Given Reads before [] after ↔ after = before := by
  constructor
  · rintro ⟨⟩
    rfl
  · rintro rfl
    exact .nothing

theorem given_singleton_iff {value : String} :
    Given Reads before [value] after ↔ before = none ∧ ∃ x, Reads value x ∧ after = some x := by
  constructor
  · rintro ⟨⟩
    exact ⟨rfl, _, ‹_›, rfl⟩
  · rintro ⟨rfl, x, hreads, rfl⟩
    exact .value hreads

/-- The values of two parts are taken one part after the other. -/
theorem given_append_iff {front back : List String} :
    Given Reads before (front ++ back) after ↔
      ∃ middle, Given Reads before front middle ∧ Given Reads middle back after := by
  constructor
  · intro h
    generalize hvalues : front ++ back = values at h
    cases h with
    | nothing =>
      obtain ⟨rfl, rfl⟩ := List.append_eq_nil_iff.1 hvalues
      exact ⟨before, .nothing, .nothing⟩
    | value hreads =>
      obtain ⟨rfl, rfl⟩ | ⟨rfl, rfl⟩ := List.append_eq_singleton_iff.1 hvalues
      · exact ⟨none, .nothing, .value hreads⟩
      · exact ⟨_, .value hreads, .nothing⟩
  · rintro ⟨middle, ⟨⟩ | hfront, hback⟩
    · exact hback
    · obtain ⟨⟩ := hback
      exact .value ‹_›

/-- **What is made of an option in the end**, if it starts out without a value: what is made of
no value, or of the one that is given. -/
theorem exists_given_iff {β : Type} {values : List String} {f : Option α → β} {y : β} :
    (∃ after, Given Reads none values after ∧ y = f after) ↔
      (values = [] ∧ y = f none)
        ∨ ∃ value x, values = [value] ∧ Reads value x ∧ y = f (some x) := by
  constructor
  · rintro ⟨_, ⟨⟩ | hreads, rfl⟩
    · exact .inl ⟨rfl, rfl⟩
    · exact .inr ⟨_, _, rfl, hreads, rfl⟩
  · rintro (⟨rfl, rfl⟩ | ⟨value, x, rfl, hreads, rfl⟩)
    · exact ⟨none, .nothing, rfl⟩
    · exact ⟨some x, .value hreads, rfl⟩

end Given

/-! ## All options and the operands -/

attribute [ext] Draft

namespace Draft

variable {d e : Draft}

/-- **What items make of a draft.** -/
structure Takes (d : Draft) (items : List Item) (e : Draft) : Prop where
  /-- The operands are paths behind those before. -/
  paths : e.paths = d.paths ++ items.filterMap Item.operand?
  /-- None of them is empty. -/
  filled : "" ∉ items.filterMap Item.operand?
  /-- A format is given by its name. -/
  format : Given (fun value format => value = format.name) d.format
    (items.filterMap (Item.given? .format)) e.format
  /-- A file may have any name but the empty one. -/
  out : Given (fun value path => value = path ∧ path ≠ "") d.out
    (items.filterMap (Item.given? .out)) e.out
  /-- The number of workers is written as one. -/
  jobs : Given (fun value jobs => readJobs value = .ok jobs) d.jobs
    (items.filterMap (Item.given? .jobs)) e.jobs

theorem takes_nil_iff : d.Takes [] e ↔ e = d := by
  constructor
  · rintro ⟨hpaths, -, hformat, hout, hjobs⟩
    exact Draft.ext (hpaths.trans (List.append_nil _)) (given_nil_iff.1 hformat)
      (given_nil_iff.1 hout) (given_nil_iff.1 hjobs)
  · rintro rfl
    exact ⟨(List.append_nil _).symm, List.not_mem_nil, .nothing, .nothing, .nothing⟩

/-- **Two parts of a list are taken one after the other.** -/
theorem takes_append_iff {front back : List Item} :
    d.Takes (front ++ back) e ↔ ∃ d', d.Takes front d' ∧ d'.Takes back e := by
  constructor
  · rintro ⟨hpaths, hfilled, hformat, hout, hjobs⟩
    rw [List.filterMap_append] at hpaths hfilled hformat hout hjobs
    obtain ⟨format, hformat, hformat'⟩ := given_append_iff.1 hformat
    obtain ⟨out, hout, hout'⟩ := given_append_iff.1 hout
    obtain ⟨jobs, hjobs, hjobs'⟩ := given_append_iff.1 hjobs
    rw [List.mem_append, not_or] at hfilled
    exact ⟨⟨d.paths ++ front.filterMap Item.operand?, format, out, jobs⟩,
      ⟨rfl, hfilled.1, hformat, hout, hjobs⟩,
      ⟨by rw [hpaths, List.append_assoc], hfilled.2, hformat', hout', hjobs'⟩⟩
  · rintro ⟨d', hfront, hback⟩
    constructor
    · rw [hback.paths, hfront.paths, List.filterMap_append, List.append_assoc]
    · rw [List.filterMap_append, List.mem_append, not_or]
      exact ⟨hfront.filled, hback.filled⟩
    · rw [List.filterMap_append]
      exact given_append_iff.2 ⟨_, hfront.format, hback.format⟩
    · rw [List.filterMap_append]
      exact given_append_iff.2 ⟨_, hfront.out, hback.out⟩
    · rw [List.filterMap_append]
      exact given_append_iff.2 ⟨_, hfront.jobs, hback.jobs⟩

/-- **A format is accepted** by its name, if there was none. -/
theorem set_format_eq_ok_iff {value : String} :
    d.set .format value = .ok e ↔
      d.format = none ∧ ∃ format : Format, value = format.name
        ∧ e = { d with format := some format } := by
  constructor
  · intro h
    unfold set at h
    dsimp only at h
    split at h
    · cases h
    · next hnone =>
      split at h
      · cases h
      · split at h
        · next format hname =>
          exact ⟨Option.not_isSome_iff_eq_none.1 hnone, format,
            Format.ofName?_eq_some_iff.1 hname, (Except.ok.inj h).symm⟩
        · cases h
  · rintro ⟨hnone, format, rfl, rfl⟩
    have hfilled : format.name.isEmpty = false := by cases format <;> decide
    unfold set
    rw [hnone, hfilled, Format.ofName?_eq_some_iff.2 rfl]
    rfl

theorem set_out_eq_ok_iff {value : String} :
    d.set .out value = .ok e ↔ d.out = none ∧ value ≠ "" ∧ e = { d with out := some value } := by
  constructor
  · intro h
    unfold set at h
    dsimp only at h
    split at h
    · cases h
    · next hnone =>
      split at h
      · cases h
      · next hfilled =>
        exact ⟨Option.not_isSome_iff_eq_none.1 hnone, fun hempty => hfilled (by simp [hempty]),
          (Except.ok.inj h).symm⟩
  · rintro ⟨hnone, hfilled, rfl⟩
    have hempty : value.isEmpty = false := by simpa using hfilled
    unfold set
    rw [hnone, hempty]
    rfl

theorem set_jobs_eq_ok_iff {value : String} :
    d.set .jobs value = .ok e ↔
      d.jobs = none ∧ ∃ jobs, readJobs value = .ok jobs ∧ e = { d with jobs := some jobs } := by
  constructor
  · intro h
    unfold set at h
    dsimp only at h
    split at h
    · cases h
    · next hnone =>
      cases hread : readJobs value with
      | error why =>
        rw [hread] at h
        cases h
      | ok jobs =>
        rw [hread] at h
        exact ⟨Option.not_isSome_iff_eq_none.1 hnone, jobs, rfl, (Except.ok.inj h).symm⟩
  · rintro ⟨hnone, jobs, hread, rfl⟩
    unfold set
    rw [hnone, hread]
    rfl

/-- **An option with its value** makes of a draft what the judgement of this value does. -/
theorem takes_attached_iff {s : Setting} {value : String} :
    d.Takes [.attached s value] e ↔ d.set s value = .ok e := by
  cases s with
  | format =>
    rw [set_format_eq_ok_iff]
    constructor
    · rintro ⟨hpaths, -, hformat, hout, hjobs⟩
      obtain ⟨hnone, format, hname, hformat⟩ := given_singleton_iff.1 hformat
      exact ⟨hnone, format, hname, Draft.ext (hpaths.trans (List.append_nil _)) hformat
        (given_nil_iff.1 hout) (given_nil_iff.1 hjobs)⟩
    · rintro ⟨hnone, format, hname, rfl⟩
      exact ⟨(List.append_nil _).symm, List.not_mem_nil,
        given_singleton_iff.2 ⟨hnone, format, hname, rfl⟩, .nothing, .nothing⟩
  | out =>
    rw [set_out_eq_ok_iff]
    constructor
    · rintro ⟨hpaths, -, hformat, hout, hjobs⟩
      obtain ⟨hnone, path, ⟨rfl, hfilled⟩, hout⟩ := given_singleton_iff.1 hout
      exact ⟨hnone, hfilled, Draft.ext (hpaths.trans (List.append_nil _))
        (given_nil_iff.1 hformat) hout (given_nil_iff.1 hjobs)⟩
    · rintro ⟨hnone, hfilled, rfl⟩
      exact ⟨(List.append_nil _).symm, List.not_mem_nil, .nothing,
        given_singleton_iff.2 ⟨hnone, value, ⟨rfl, hfilled⟩, rfl⟩, .nothing⟩
  | jobs =>
    rw [set_jobs_eq_ok_iff]
    constructor
    · rintro ⟨hpaths, -, hformat, hout, hjobs⟩
      obtain ⟨hnone, jobs, hread, hjobs⟩ := given_singleton_iff.1 hjobs
      exact ⟨hnone, jobs, hread, Draft.ext (hpaths.trans (List.append_nil _))
        (given_nil_iff.1 hformat) (given_nil_iff.1 hout) hjobs⟩
    · rintro ⟨hnone, jobs, hread, rfl⟩
      exact ⟨(List.append_nil _).symm, List.not_mem_nil, .nothing, .nothing,
        given_singleton_iff.2 ⟨hnone, jobs, hread, rfl⟩⟩

/-- Where the value of an option stands makes no difference. -/
theorem takes_apart_iff {s : Setting} {value : String} :
    d.Takes [.apart s value] e ↔ d.Takes [.attached s value] e := by
  constructor
  · exact fun h => ⟨h.paths, h.filled, h.format, h.out, h.jobs⟩
  · exact fun h => ⟨h.paths, h.filled, h.format, h.out, h.jobs⟩

theorem takes_operand_iff {text : String} :
    d.Takes [.operand text] e ↔ d.settle (.operands [text]) = .ok e := by
  rw [settle_operands_eq_ok_iff]
  constructor
  · rintro ⟨hpaths, hfilled, hformat, hout, hjobs⟩
    exact ⟨hfilled, Draft.ext hpaths (given_nil_iff.1 hformat) (given_nil_iff.1 hout)
      (given_nil_iff.1 hjobs)⟩
  · rintro ⟨hfilled, rfl⟩
    exact ⟨rfl, hfilled, .nothing, .nothing, .nothing⟩

/-- **An item makes of a draft what its judgement does.** -/
theorem takes_singleton_iff {item : Item} :
    d.Takes [item] e ↔ d.settle item.pending = .ok e := by
  cases item with
  | operand text => exact takes_operand_iff
  | attached s value => exact takes_attached_iff
  | apart s value => exact takes_apart_iff.trans takes_attached_iff

/-- **Items are accepted exactly with what they make of a draft.** By induction on the items. -/
theorem settleAll_eq_ok_iff {items : List Item} :
    d.settleAll items = .ok e ↔ d.Takes items e := by
  induction items generalizing d with
  | nil =>
    rw [takes_nil_iff]
    show Except.ok d = Except.ok e ↔ _
    rw [Except.ok.injEq, eq_comm]
  | cons item items ih =>
    rw [settleAll_cons_eq_ok_iff, ← List.singleton_append, takes_append_iff]
    simp only [ih, takes_singleton_iff]

/-- A draft makes settings when there is a path in it. -/
theorem finish_eq_ok_iff {s : Settings} :
    d.finish = .ok s ↔ d.paths ≠ [] ∧ s.paths = d.paths ∧ s.format = d.format.getD .text
      ∧ s.out = d.out ∧ s.jobs = d.jobs.getD 1 := by
  constructor
  · intro h
    unfold finish at h
    split at h
    · cases h
    · next hpaths =>
      cases h
      exact ⟨fun hnil => hpaths (List.isEmpty_iff.2 hnil), rfl, rfl, rfl, rfl⟩
  · rintro ⟨hne, hpaths, hformat, hout, hjobs⟩
    unfold finish
    rw [if_neg (by simpa using hne), ← hpaths, ← hformat, ← hout, ← hjobs]

end Draft

/-! ## Settings -/

/-- **What a list of arguments in good order asks for.** -/
structure ArgumentList.Means (l : ArgumentList) (s : Settings) : Prop where
  /-- The paths are the operands, wherever the options stand between them. -/
  paths : s.paths = l.operands
  /-- There is one. -/
  ne_nil : s.paths ≠ []
  /-- None of them is empty. -/
  filled : "" ∉ s.paths
  /-- The format is given once, by its name, or it is text. -/
  format : (l.given .format = [] ∧ s.format = .text) ∨ l.given .format = [s.format.name]
  /-- The file is given once and has a name, or there is none. -/
  out : (l.given .out = [] ∧ s.out = none)
    ∨ ∃ path, l.given .out = [path] ∧ path ≠ "" ∧ s.out = some path
  /-- The number of workers is given once and in bounds, or it is one. -/
  jobs : (l.given .jobs = [] ∧ s.jobs = 1)
    ∨ ∃ value number, l.given .jobs = [value] ∧ Writes value.toList number
      ∧ 1 ≤ number ∧ number ≤ 65535 ∧ s.jobs.toNat = number

namespace ArgumentList

variable {l : ArgumentList} {s : Settings}

theorem exists_given_format_iff {values : List String} {format : Format} :
    (∃ given, Given (fun value format => value = Format.name format) none values given
        ∧ format = given.getD .text) ↔
      (values = [] ∧ format = .text) ∨ values = [format.name] := by
  rw [exists_given_iff]
  refine or_congr Iff.rfl ?_
  constructor
  · rintro ⟨_, _, hvalues, rfl, rfl⟩
    exact hvalues
  · exact fun hvalues => ⟨_, format, hvalues, rfl, rfl⟩

theorem exists_given_out_iff {values : List String} {out : Option String} :
    (∃ given, Given (fun value path => value = path ∧ path ≠ "") none values given
        ∧ out = given) ↔
      (values = [] ∧ out = none) ∨ ∃ path, values = [path] ∧ path ≠ "" ∧ out = some path := by
  refine Iff.trans (exists_given_iff (f := id)) (or_congr Iff.rfl ?_)
  constructor
  · rintro ⟨path, _, hvalues, ⟨rfl, hfilled⟩, hout⟩
    exact ⟨path, hvalues, hfilled, hout⟩
  · rintro ⟨path, hvalues, hfilled, hout⟩
    exact ⟨path, path, hvalues, ⟨rfl, hfilled⟩, hout⟩

theorem exists_given_jobs_iff {values : List String} {jobs : UInt16} :
    (∃ given, Given (fun value jobs => Draft.readJobs value = .ok jobs) none values given
        ∧ jobs = given.getD 1) ↔
      (values = [] ∧ jobs = 1) ∨ ∃ value number, values = [value]
        ∧ Writes value.toList number ∧ 1 ≤ number ∧ number ≤ 65535 ∧ jobs.toNat = number := by
  rw [exists_given_iff]
  refine or_congr Iff.rfl ?_
  constructor
  · rintro ⟨value, _, hvalues, hread, rfl⟩
    obtain ⟨number, hnumber⟩ := readJobs_eq_ok_iff.1 hread
    exact ⟨value, number, hvalues, hnumber⟩
  · rintro ⟨value, number, hvalues, hnumber⟩
    exact ⟨value, jobs, hvalues, readJobs_eq_ok_iff.2 ⟨number, hnumber⟩, rfl⟩

/-- **A list means what comes of the blank draft.** -/
theorem means_iff :
    l.Means s ↔ ∃ d e : Draft, Draft.blank.Takes l.items d
      ∧ d.settle (.operands (l.behind.getD [])) = .ok e ∧ e.finish = .ok s := by
  constructor
  · rintro ⟨hpaths, hne, hfilled, hformat, hout, hjobs⟩
    obtain ⟨format, hgivenFormat, hformat⟩ := exists_given_format_iff.2 hformat
    obtain ⟨out, hgivenOut, hout⟩ := exists_given_out_iff.2 hout
    obtain ⟨jobs, hgivenJobs, hjobs⟩ := exists_given_jobs_iff.2 hjobs
    have hoperands : "" ∉ l.operands := hpaths ▸ hfilled
    rw [operands, List.mem_append, not_or] at hoperands
    refine ⟨⟨l.items.filterMap Item.operand?, format, out, jobs⟩, _,
      ⟨rfl, hoperands.1, hgivenFormat, hgivenOut, hgivenJobs⟩,
      settle_operands_eq_ok_iff.2 ⟨hoperands.2, rfl⟩, ?_⟩
    exact Draft.finish_eq_ok_iff.2
      ⟨fun hnil => hne (hpaths.trans hnil), hpaths, hformat, hout, hjobs⟩
  · rintro ⟨d, e, htakes, hbehind, hfinish⟩
    obtain ⟨hfilled, rfl⟩ := settle_operands_eq_ok_iff.1 hbehind
    obtain ⟨hne, hpaths, hformat, hout, hjobs⟩ := Draft.finish_eq_ok_iff.1 hfinish
    have hoperands : s.paths = l.operands := by
      rw [hpaths, htakes.paths]
      rfl
    refine ⟨hoperands, hpaths ▸ hne, ?_, ?_, ?_, ?_⟩
    · rw [hoperands, operands, List.mem_append, not_or]
      exact ⟨htakes.filled, hfilled⟩
    · exact exists_given_format_iff.1 ⟨_, htakes.format, hformat⟩
    · exact exists_given_out_iff.1 ⟨_, htakes.out, hout⟩
    · exact exists_given_jobs_iff.1 ⟨_, htakes.jobs, hjobs⟩

end ArgumentList

/-- **The command line has a grammar.** Arguments give settings exactly when they are items, and
perhaps a separator with operands behind it, and the settings are what these ask for. An item
is an operand or an option with its value, which is attached to it by an equals sign or stands
in the next argument; and operands and such values are a single hyphen or do not begin with
one. -/
theorem settings_eq_ok_iff (arguments : List String) (s : Settings) :
    settings arguments = .ok s ↔ ∃ l : ArgumentList, l.spelling = arguments ∧ l.Means s := by
  unfold settings
  simp only [bind_eq_ok_iff, mistaken_eq_ok_iff, readArguments_eq_ok_iff,
    Draft.settleAll_eq_ok_iff, ArgumentList.means_iff]
  constructor
  · rintro ⟨e, ⟨l, hspelling, d, htakes, hbehind⟩, hfinish⟩
    exact ⟨l, hspelling, d, e, htakes, hbehind, hfinish⟩
  · rintro ⟨l, hspelling, d, e, htakes, hbehind, hfinish⟩
    exact ⟨e, ⟨l, hspelling, d, htakes, hbehind⟩, hfinish⟩

/-- An option between the operands, and an operand behind the separator that looks like one. -/
example : settings ["a", "--jobs", "+007", "-", "--", "--out=b"]
    = .ok { paths := ["a", "-", "--out=b"], format := .text, out := none, jobs := 7 } :=
  rfl

end WriteGate.CommandLine
