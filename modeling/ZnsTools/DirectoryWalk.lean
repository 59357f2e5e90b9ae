import ZnsTools.FileMapping

set_option autoImplicit false

namespace ZnsTools

-- What opening a listed file gives: it can be gone by then, or refuse to be opened (or `fstat`).
inductive FileAccess where
  | opened
  | deleted
  | denied
  deriving DecidableEq, Repr

structure FileEntry where
  name : CString
  access : FileAccess
  stBlocks : UInt64
  answers : FileAnswers

-- A listing is what `readdir` returns of a directory, call after call.
mutual
inductive DirEntry where
  | file (entry : FileEntry)
  | dir (name : CString) (opened : Bool) (entries : Listing)
inductive Listing where
  | nil
  | cons (entry : DirEntry) (rest : Listing)
end

-- "%s/%s"
def filePath (path name : CString) : CString :=
  path ++ [47] ++ name

-- "%s/%s/", but `snprintf` is given one byte less than it takes, and drops the last character.
def subPath (path name : CString) : CString :=
  let len := path.length + name.length + 2
  (path ++ [47] ++ name ++ [47]).take (len - 1)

def dotNames : List CString := [[46], [46, 46]]

-- `heap` is what `realloc` finds behind the table at each call.
def FileEntry.call (file : FileEntry) (filename : CString) (heap : FileCounter) : FileCall :=
  ⟨filename, file.stBlocks, heap, file.answers⟩

-- Every failure of `get_extents` ends the tool, and so does a zone map that is still empty.
def collectFile (cfg : Config) (heap : Nat → FileCounter) (filename : CString) (file : FileEntry)
    (m : Machine) : Except Abort Machine :=
  match file.access with
  | .deleted => .ok m
  | .denied => .error .exitFailure
  | .opened => do
    let m ← (file.call filename (heap m.opened)).events.foldlM (step cfg) m
    if m.failed then .error .exitFailure
    else if m.ctrl.zonemap.extentCtr = 0 then .error .exitFailure
    else .ok m

mutual
def collectEntry (cfg : Config) (heap : Nat → FileCounter) (path : CString) :
    DirEntry → Machine → Except Abort Machine
  | .file file, m => collectFile cfg heap (filePath path file.name) file m
  | .dir name opened entries, m =>
    if name ∈ dotNames then .ok m
    else if opened then collectExtents cfg heap (subPath path name) entries m
    else .error .exitFailure
def collectExtents (cfg : Config) (heap : Nat → FileCounter) (path : CString) :
    Listing → Machine → Except Abort Machine
  | .nil, m => .ok m
  | .cons entry rest, m =>
    collectEntry cfg heap path entry m >>= collectExtents cfg heap path rest
end

inductive Visit where
  | file (filename : CString) (file : FileEntry)
  | closedDir

def visit (cfg : Config) (heap : Nat → FileCounter) (m : Machine) : Visit → Except Abort Machine
  | .file filename file => collectFile cfg heap filename file m
  | .closedDir => .error .exitFailure

mutual
def DirEntry.visits (path : CString) : DirEntry → List Visit
  | .file file => [.file (filePath path file.name) file]
  | .dir name opened entries =>
    if name ∈ dotNames then []
    else if opened then entries.visits (subPath path name)
    else [.closedDir]
def Listing.visits (path : CString) : Listing → List Visit
  | .nil => []
  | .cons entry rest => entry.visits path ++ rest.visits path
end

mutual
theorem collectEntry_eq (cfg : Config) (heap : Nat → FileCounter) (path : CString)
    (entry : DirEntry) (m : Machine) :
    collectEntry cfg heap path entry m = (entry.visits path).foldlM (visit cfg heap) m := by
  cases entry with
  | file file => simp [collectEntry, DirEntry.visits, visit]
  | dir name opened entries =>
    rw [collectEntry, DirEntry.visits]
    split
    · rfl
    · split
      · exact collectExtents_eq cfg heap (subPath path name) entries m
      · rfl
theorem collectExtents_eq (cfg : Config) (heap : Nat → FileCounter) (path : CString)
    (listing : Listing) (m : Machine) :
    collectExtents cfg heap path listing m = (listing.visits path).foldlM (visit cfg heap) m := by
  cases listing with
  | nil => simp [collectExtents, Listing.visits, pure, Except.pure]
  | cons entry rest =>
    rw [collectExtents, Listing.visits, List.foldlM_append, collectEntry_eq cfg heap path entry m]
    congr 1
    funext middle
    exact collectExtents_eq cfg heap path rest middle
end

/-- The same directory listed in another order, at any depth. -/
inductive Reordered : Listing → Listing → Prop where
  | refl (listing : Listing) : Reordered listing listing
  | keep (entry : DirEntry) {a b : Listing} (rest : Reordered a b) :
      Reordered (.cons entry a) (.cons entry b)
  | inside (name : CString) (opened : Bool) {a b : Listing} (entries : Reordered a b)
      (rest : Listing) :
      Reordered (.cons (.dir name opened a) rest) (.cons (.dir name opened b) rest)
  | swap (first second : DirEntry) (rest : Listing) :
      Reordered (.cons first (.cons second rest)) (.cons second (.cons first rest))
  | trans {a b c : Listing} (first : Reordered a b) (second : Reordered b c) : Reordered a c

theorem Reordered.visits {a b : Listing} (reordered : Reordered a b) (path : CString) :
    (a.visits path).Perm (b.visits path) := by
  induction reordered generalizing path with
  | refl listing => exact .refl _
  | keep entry _ ih => exact (ih path).append_left _
  | inside name opened _ rest ih =>
    apply List.Perm.append_right
    rw [DirEntry.visits, DirEntry.visits]
    split
    · exact .refl _
    · split
      · exact ih _
      · exact .refl _
  | swap first second rest =>
    simp only [Listing.visits, ← List.append_assoc]
    exact List.perm_append_comm.append_right _
  | trans _ _ ih later => exact (ih path).trans (later path)

end ZnsTools
