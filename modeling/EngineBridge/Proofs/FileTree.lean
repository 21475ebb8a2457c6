import EngineBridge.FileTree
import EngineBridge.Proofs.Except

/-! What is found in a tree of files after something was put into it. -/
namespace EngineBridge.FileTree

variable {t : FileTree} {names other : List String} {name : String}

theorem lookup_filter {entries : List (List String × FileEntry)} :
    (entries.filter (fun e => e.1 ≠ names)).lookup other =
      if other = names then none else entries.lookup other := by
  induction entries with
  | nil => simp
  | cons e rest ih =>
    obtain ⟨key, entry⟩ := e
    by_cases hkey : key = names
    · rw [List.filter_cons_of_neg (by simp [hkey]), ih]
      split
      · rfl
      · rename_i hother
        have hlookup : (other == key) = false := beq_eq_false_iff_ne.mpr (hkey ▸ hother)
        simp [List.lookup_cons, hlookup]
    · rw [List.filter_cons_of_pos (by simp [hkey]), List.lookup_cons, List.lookup_cons, ih]
      cases hlookup : other == key with
      | true => simp [eq_of_beq hlookup, hkey]
      | false => rfl

theorem find?_set (entry : FileEntry) (h : names ≠ []) :
    (t.set names entry).find? other = if other = names then some entry else t.find? other := by
  unfold find? set
  rw [List.lookup_append, lookup_filter]
  by_cases hother : other = names
  · simp [hother, h]
  · have hlookup : (other == names) = false := beq_eq_false_iff_ne.mpr hother
    simp [hother, List.lookup_cons, hlookup]

def IsPlain (name : String) : Prop := name ≠ "" ∧ name ≠ "." ∧ name ≠ ".."

theorem follow_of_isPlain (names : List String) (h : IsPlain name) :
    follow names name = names ++ [name] := by
  simp [follow, h.1, h.2.1, h.2.2]

/-- Whether a file of that name can be written into a directory, which has a path and names. -/
structure Admits (t : FileTree) (directory : String) (names : List String) (name : String) :
    Prop where
  check : FileTree.check (FileTree.join directory name) = .ok ()
  enter : t.enter names name = .ok (names ++ [name])
  notDirectory : t.find? (names ++ [name]) ≠ some .directory

theorem find?_of_enter_eq_ok (h : t.enter names name = .ok other) :
    t.find? names = some .directory := by
  unfold enter at h
  cases hfind : t.find? names with
  | none => simp [hfind] at h
  | some entry =>
    cases entry with
    | directory => rfl
    | file => simp [hfind] at h

theorem write_of_ne_directory (content : FileContent) (h : t.find? names ≠ some .directory) :
    t.write names content = .ok (t.set names (.file content)) := by
  unfold write
  split
  · exact absurd ‹_› h
  · rfl

theorem enter_eq_of_find?_eq {u : FileTree} (h : u.find? names = t.find? names) :
    u.enter names name = t.enter names name := by
  unfold enter
  rw [h]

theorem Admits.set {directory written : String} (h : t.Admits directory names name)
    (content : FileContent) :
    (t.set (names ++ [written]) (.file content)).Admits directory names name := by
  have hwritten : names ++ [written] ≠ [] := by simp
  refine ⟨h.check, ?_, ?_⟩
  · have hsame : (t.set (names ++ [written]) (.file content)).find? names = t.find? names := by
      rw [find?_set _ hwritten, if_neg (by simp)]
    rw [enter_eq_of_find?_eq hsame, h.enter]
  · rw [find?_set _ hwritten]
    split
    · simp
    · exact h.notDirectory

/-- Whether a file of that name can be written into the directory at a path, which is made if it is
missing. -/
def CanHold (t : FileTree) (place : List String) (directory name : String) : Prop :=
  ∃ made names target, t.makeDirectories place directory = (made, .ok names) ∧
    FileTree.check (FileTree.join directory name) = .ok () ∧
    made.enter names name = .ok target ∧ made.find? target ≠ some .directory

theorem CanHold.admits {place : List String} {directory : String} {made : FileTree}
    (h : t.CanHold place directory name) (hname : IsPlain name)
    (hmade : t.makeDirectories place directory = (made, .ok names)) :
    made.Admits directory names name := by
  obtain ⟨_, _, target, hmade', hcheck, henter, htarget⟩ := h
  obtain ⟨rfl, hnames⟩ := Prod.mk.inj (hmade.symm.trans hmade')
  obtain rfl := Except.ok.inj hnames
  have hfollow : target = names ++ [name] := by
    have hdirectory := find?_of_enter_eq_ok henter
    unfold enter at henter
    rw [hdirectory] at henter
    simp only at henter
    split at henter
    · cases henter
    · rw [← follow_of_isPlain names hname]
      exact (Except.ok.inj henter).symm
  exact ⟨hcheck, hfollow ▸ henter, hfollow ▸ htarget⟩

end EngineBridge.FileTree
