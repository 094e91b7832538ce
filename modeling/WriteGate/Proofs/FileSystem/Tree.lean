import WriteGate.Proofs.FileSystem.ReadBack

/-!
# File systems as trees

Entries are kept as a list, and a list says nothing of what is above a location. In
a tree, whatever is somewhere is in a directory (`IsTree`). This is what a walk
counts on when it goes up, and so a path that leads anywhere in a tree leads to a
file or a directory: links are passed, and nothing is not arrived at
(`IsTree.leads_iff`).

Every file system that comes about by changes of a bare one is a tree. Each change
puts something into a directory, never in the place of one, or takes it away with
all that is below.
-/

namespace WriteGate.FileSystem

open WriteGate.Path

variable {fs after : FileSystem} {purpose : Purpose} {k n : Nat} {s t : Stage}
  {l place : Location} {path : String} {bytes : ByteArray}

/-- **A tree**: whatever is somewhere is in a directory. The root is in itself. -/
structure IsTree (fs : FileSystem) : Prop where
  /-- Above what is there, there is a directory. -/
  above {l : Location} {e : Entry} (h : fs.entryAt? l = some e) :
    fs.entryAt? l.dropLast = some .directory

/-- **Ground to stand on**: a directory or a file, and neither a link nor nothing. -/
def Firm (fs : FileSystem) (l : Location) : Prop :=
  fs.entryAt? l = some .directory ∨ ∃ bytes, fs.entryAt? l = some (.file bytes)

/-! ## Where paths lead in a tree -/

theorem wayThrough_ne_nil {target : String} (h : target ≠ "") (rest : List Step) :
    wayThrough purpose target rest ≠ [] := by
  cases rest with
  | nil => exact way_ne_nil purpose h
  | cons step rest => exact List.append_ne_nil_of_right_ne_nil _ (List.cons_ne_nil step rest)

/-- The last move of a walk is to firm ground. -/
theorem Moves.firm (htree : fs.IsTree) (h : fs.Moves purpose k s t) (ht : t.ahead = []) :
    fs.Firm t.location := by
  cases h with
  | here hdirectory => exact .inl hdirectory
  | up hdirectory => exact .inl (htree.above hdirectory)
  | @entry l name rest e _ _ hentry hlink =>
    cases e with
    | directory => exact .inl hentry
    | file bytes => exact .inr ⟨bytes, hentry⟩
    | link target => exact absurd rfl (hlink target)
  | link _ _ _ htarget => exact absurd ht (wayThrough_ne_nil htarget _)

theorem Walks.firm (htree : fs.IsTree) (h : fs.Walks purpose n s t) (hs : s.ahead ≠ [])
    (ht : t.ahead = []) : fs.Firm t.location := by
  induction h with
  | stay => exact absurd ht hs
  | @go _ _ _ u _ first later ih =>
    by_cases hu : u.ahead = []
    · -- nothing is left to do, so this move was the last
      obtain ⟨l, ahead⟩ := u
      obtain rfl : ahead = [] := hu
      obtain ⟨-, rfl⟩ := halted_nil.eq_of_walks later
      exact first.firm htree rfl
    · exact ih hu ht

/-- What a path leads to is firm ground. -/
theorem IsTree.firm (htree : fs.IsTree) (h : fs.LeadsTo path l) : fs.Firm l := by
  obtain ⟨hspelling, n, -, hwalk⟩ := h
  exact hwalk.firm htree (way_ne_nil .find (checkSpelling_eq_ok_iff.1 hspelling).2.1) rfl

/-- **A path that leads somewhere leads to a directory or to a file.** -/
theorem IsTree.leads_iff (htree : fs.IsTree) :
    fs.Leads path ↔ fs.LeadsToDirectory path ∨ ∃ bytes, fs.LeadsToFile path bytes := by
  constructor
  · rintro ⟨l, hl⟩
    rcases htree.firm hl with hdirectory | ⟨bytes, hfile⟩
    · exact .inl ⟨l, hl, hdirectory⟩
    · exact .inr ⟨bytes, l, hl, hfile⟩
  · rintro (⟨l, hl, -⟩ | ⟨bytes, l, hl, -⟩)
    · exact ⟨l, hl⟩
    · exact ⟨l, hl⟩

theorem LeadsToDirectory.contents (h : fs.LeadsToDirectory path) :
    fs.contents path = .error .isDirectory := by
  obtain ⟨l, hl, hdirectory⟩ := h
  rw [FileSystem.contents, locate_eq_ok_iff.2 hl]
  simp only [bind, Except.bind, hdirectory]

theorem LeadsToDirectory.not_leadsToFile (h : fs.LeadsToDirectory path) :
    ¬ fs.LeadsToFile path bytes := by
  intro hfile
  have hcontents := contents_eq_ok_iff.2 hfile
  rw [h.contents] at hcontents
  cases hcontents

/-! ## Changes of trees -/

/-- **What is put into a directory**, and not in the place of one, leaves a tree. -/
theorem IsTree.put (htree : fs.IsTree) (hplace : fs.entryAt? place ≠ some .directory)
    (habove : fs.entryAt? place.dropLast = some .directory) (e : Entry) :
    (fs.put place e).IsTree := by
  constructor
  intro l e' h
  by_cases hthere : l = place
  · rw [hthere]
    exact entryAt?_put_of_directory hplace habove
  · rw [entryAt?_put_of_ne fs e hthere] at h
    exact entryAt?_put_of_directory hplace (htree.above h)

/-- What is below a pruned location is gone, and everything else stays. -/
theorem entryAt?_prune (fs : FileSystem) (place : Location) (hl : l ≠ []) :
    (fs.prune place).entryAt? l = if place.isPrefixOf l then none else fs.entryAt? l := by
  have key : ∀ es : List (Location × Entry),
      (es.filter fun e => !place.isPrefixOf e.1).lookup l
        = if place.isPrefixOf l then none else es.lookup l := by
    intro es
    induction es with
    | nil => simp
    | cons a es ih =>
      obtain ⟨l', e⟩ := a
      by_cases hhere : l = l'
      · subst hhere
        cases hbelow : place.isPrefixOf l <;> simp [hbelow, ih]
      · cases hbelow : place.isPrefixOf l' <;>
          simp [hbelow, ih, List.lookup_cons, beq_eq_false_iff_ne.2 hhere]
  simp [prune, entryAt?, hl, key]

/-- **What is taken away with all that is below it** leaves a tree. -/
theorem IsTree.prune (htree : fs.IsTree) (place : Location) : (fs.prune place).IsTree := by
  constructor
  intro l e h
  by_cases habove : l.dropLast = []
  · rw [habove]
    exact entryAt?_root _
  · have hl : l ≠ [] := by
      rintro rfl
      exact habove rfl
    rw [entryAt?_prune fs place hl] at h
    split at h
    · cases h
    · next hclear =>
      have hclear' : ¬ place.isPrefixOf l.dropLast := by
        rw [List.isPrefixOf_iff_prefix] at hclear ⊢
        exact fun hbelow => hclear (hbelow.trans (List.dropLast_prefix l))
      rw [entryAt?_prune fs place habove, if_neg hclear']
      exact htree.above h

/-- Where a file is put there is a directory above. -/
theorem IsTree.above_of_walk {d : Destination} (htree : fs.IsTree)
    (h : fs.walk purpose path = .ok d) :
    fs.entryAt? d.location.dropLast = some .directory := by
  obtain ⟨hspelling, n, t, -, hwalk, harrives⟩ := walk_eq_ok_iff.1 h
  cases harrives with
  | present =>
    have hway := way_ne_nil purpose (checkSpelling_eq_ok_iff.1 hspelling).2.1
    rcases hwalk.firm htree hway rfl with hdirectory | ⟨bytes, hfile⟩
    · exact htree.above hdirectory
    · exact htree.above hfile
  | vacant hdirectory =>
    rw [Destination.location, List.dropLast_concat]
    exact hdirectory

theorem IsTree.putFile (htree : fs.IsTree) (h : fs.putFile path bytes = .ok after) :
    after.IsTree := by
  obtain ⟨d, hwalk, hplace, rfl⟩ := putFile_eq_ok_iff.1 h
  exact htree.put hplace (htree.above_of_walk hwalk) _

/-- **What a path names is in a directory.** -/
theorem above_of_nameOf (h : fs.nameOf path = .ok l) :
    fs.entryAt? l.dropLast = some .directory := by
  simp only [nameOf, bind, Except.bind] at h
  split at h
  · cases h
  · split at h
    · cases h
    · split at h
      · cases h
      · split at h
        · cases h
        · next name _ _ _ directory hlocate =>
          obtain rfl := Except.ok.inj h
          rw [List.dropLast_concat]
          exact (locate_eq_ok_iff.1 hlocate).entryAt?_of_endsInSlash
            (endsInSlash_append _ (by simp))

/-- What is put under a free name leaves a tree. -/
theorem IsTree.put_nameOf (htree : fs.IsTree) (hname : fs.nameOf path = .ok l)
    (hnone : fs.entryAt? l = none) (e : Entry) : (fs.put l e).IsTree :=
  htree.put (by simp [hnone]) (above_of_nameOf hname) e

theorem IsTree.makeDirectory (htree : fs.IsTree) (h : fs.makeDirectory path = .ok after) :
    after.IsTree := by
  simp only [FileSystem.makeDirectory, bind, Except.bind] at h
  split at h
  · split at h
    · obtain rfl := Except.ok.inj h
      exact htree
    · cases h
  · split at h
    · cases h
    · next hname =>
      split at h
      · next hnone =>
        obtain rfl := Except.ok.inj h
        exact htree.put_nameOf hname hnone _
      · cases h

theorem IsTree.foldlM_makeDirectory {paths : List String} (htree : fs.IsTree)
    (h : paths.foldlM FileSystem.makeDirectory fs = .ok after) : after.IsTree := by
  induction paths generalizing fs with
  | nil =>
    obtain rfl := Except.ok.inj h
    exact htree
  | cons path paths ih =>
    rw [List.foldlM_cons] at h
    cases hpath : fs.makeDirectory path with
    | error fault =>
      rw [hpath] at h
      cases h
    | ok next =>
      rw [hpath] at h
      exact ih (htree.makeDirectory hpath) h

theorem IsTree.makeLink {target : String} (htree : fs.IsTree)
    (h : fs.makeLink path target = .ok after) : after.IsTree := by
  simp only [FileSystem.makeLink, bind, Except.bind] at h
  split at h
  · cases h
  · split at h
    · cases h
    · next hname =>
      split at h
      · next hnone =>
        obtain rfl := Except.ok.inj h
        exact htree.put_nameOf hname hnone _
      · cases h

theorem IsTree.remove (htree : fs.IsTree) (h : fs.remove path = .ok after) : after.IsTree := by
  simp only [FileSystem.remove, bind, Except.bind] at h
  split at h
  · cases h
  · split at h
    · cases h
    · obtain rfl := Except.ok.inj h
      exact htree.prune _

/-- **One change of a file system**, in any of the ways there are. -/
inductive Changes (fs after : FileSystem) : Prop
  /-- A file is written. -/
  | putFile {path : String} {bytes : ByteArray} (h : fs.putFile path bytes = .ok after) :
      Changes fs after
  /-- A directory is made. -/
  | makeDirectory {path : String} (h : fs.makeDirectory path = .ok after) : Changes fs after
  /-- A directory is made, and those on the way to it. -/
  | makeDirectories {path : String} (h : fs.makeDirectories path = .ok after) :
      Changes fs after
  /-- The directories on the way to a path are made. -/
  | makeParents {path : String} (h : fs.makeParents path = .ok after) : Changes fs after
  /-- A link is made. -/
  | makeLink {path target : String} (h : fs.makeLink path target = .ok after) :
      Changes fs after
  /-- Something is removed. -/
  | remove {path : String} (h : fs.remove path = .ok after) : Changes fs after

/-- **A file system that came about by changes** of a bare one, in which there is nothing
but the root. -/
inductive Built : FileSystem → Prop
  /-- Nothing but the root. -/
  | bare (workingDirectory : Location) :
      Built { entries := [], workingDirectory := workingDirectory }
  /-- One more change. -/
  | change {fs after : FileSystem} (h : Built fs) (hchange : fs.Changes after) : Built after

theorem IsTree.changes (htree : fs.IsTree) (h : fs.Changes after) : after.IsTree := by
  cases h with
  | putFile h => exact htree.putFile h
  | makeDirectory h => exact htree.makeDirectory h
  | makeDirectories h =>
    unfold FileSystem.makeDirectories at h
    split at h
    · cases h
    · exact htree.foldlM_makeDirectory h
  | makeParents h => exact htree.foldlM_makeDirectory h
  | makeLink h => exact htree.makeLink h
  | remove h => exact htree.remove h

/-- **Every file system that came about by changes is a tree.** -/
theorem Built.isTree (h : Built fs) : fs.IsTree := by
  induction h with
  | bare workingDirectory =>
    constructor
    intro l e h
    cases l with
    | nil => exact entryAt?_root _
    | cons name rest => cases h
  | change _ hchange ih => exact ih.changes hchange

end WriteGate.FileSystem
