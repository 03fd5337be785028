/-
# What a write changes

A write at a path changes what is under the names that the path leads to, and nothing else: it
makes the file or replaces it. So a file is safe from a write if its names are others, and where a
path leads to nothing they are. The new file is put into a folder that is there, so it makes no
folder; with the folders all walks stay, and with the walks what paths lead to.

Key definitions: `Machine.Keeps`, `Machine.Gains`.
Key theorems: `Machine.file?_put_of_ne`, `Machine.isFolder_dropLast_of_rowOf`,
`Machine.Keeps.place_eq`, `Machine.keeps_write`, `Machine.gains_write`.
-/
import DataTerms.Command.Run
import DataTerms.Proofs.Outcomes
import Mathlib.Data.String.Basic

namespace DataTerms
namespace Machine

open Outcomes

variable {machine machine' : Machine} {names : List String} {path : String}
  {bytes : List UInt8}

/-! ### What is under names -/

theorem lookup_filter_of_ne {names' : List String} (hne : names' ≠ names)
    (files : List (List String × List UInt8)) :
    (files.filter (·.1 ≠ names)).lookup names' = files.lookup names' := by
  induction files with
  | nil => rfl
  | cons file rest ih =>
    by_cases hfile : file.1 = names
    · have hother : (names' == file.1) = false := by simpa [hfile] using hne
      rw [List.filter_cons_of_neg (by simp [hfile]), ih, List.lookup_cons, hother]
    · rw [List.filter_cons_of_pos (by simp [hfile]), List.lookup_cons, List.lookup_cons, ih]

/-- A file that is put down is under its names, and under no others. -/
theorem file?_put_of_ne {names' : List String} (hne : names' ≠ names) (machine : Machine)
    (bytes : List UInt8) : (machine.put names bytes).file? names' = machine.file? names' := by
  unfold put
  split
  · rfl
  · have hother : (names' == names) = false := by simpa using hne
    rw [file?, List.lookup_cons, hother]
    exact lookup_filter_of_ne hne machine.files

theorem put_eq_cons (hdevice : isDevice names = false) (hnew : machine.file? names = none)
    (bytes : List UInt8) :
    machine.put names bytes = { machine with files := (names, bytes) :: machine.files } := by
  have hall : machine.files.filter (·.1 ≠ names) = machine.files := by
    refine List.filter_eq_self.mpr fun file hmem => ?_
    have hne := bne_iff_ne.mp (List.lookup_eq_none_iff.mp hnew file hmem)
    exact decide_eq_true hne.symm
  rw [put, hdevice, hall]
  rfl

/-- While the command is fed, the devices come before the files. -/
theorem file?_fed (machine : Machine) (input : List UInt8) (names : List String) :
    (machine.fed input).file? names = ((devices input).lookup names).or (machine.file? names) :=
  List.lookup_append

theorem isDevice_eq_false (input : List UInt8) :
    isDevice names = false ↔ (devices input).lookup names = none := by
  unfold isDevice devices
  rw [Option.isSome_eq_false_iff, Option.isNone_iff_eq_none, List.lookup_eq_none_iff,
    List.lookup_eq_none_iff]
  simp only [List.forall_mem_cons]

/-! ### Folders -/

theorem home_mem_knownFolders (machine : Machine) : machine.home ∈ machine.knownFolders :=
  List.mem_cons_self

theorem deviceFolder_mem_knownFolders (machine : Machine) : deviceFolder ∈ machine.knownFolders :=
  List.mem_cons_of_mem _ List.mem_cons_self

theorem mem_knownFolders_append {files : List (List String × List UInt8)} {folder : List String} :
    folder ∈ knownFolders { machine with files := files ++ machine.files } ↔
      (∃ file ∈ files, file.1.dropLast = folder) ∨ folder ∈ machine.knownFolders := by
  simp only [knownFolders, List.map_append, List.mem_append, List.mem_map]
  exact or_left_comm

theorem isFolder_iff : machine.isFolder names = true ↔
    ∃ folder ∈ machine.knownFolders, names <+: folder := by
  simp only [isFolder, List.any_eq_true, List.isPrefixOf_iff_prefix]

theorem isFolder_of_mem (h : names ∈ machine.knownFolders) : machine.isFolder names = true :=
  isFolder_iff.mpr ⟨names, h, List.prefix_rfl⟩

/-- What is on the way to a folder is a folder. -/
theorem isFolder_of_prefix {names' : List String} (hbegins : names' <+: names)
    (h : machine.isFolder names = true) : machine.isFolder names' = true := by
  obtain ⟨folder, hmem, hnames⟩ := isFolder_iff.mp h
  exact isFolder_iff.mpr ⟨folder, hmem, hbegins.trans hnames⟩

/-- Files that are put into folders make no new ones. -/
theorem isFolder_append {files : List (List String × List UInt8)}
    (h : ∀ file ∈ files, machine.isFolder file.1.dropLast = true) (names : List String) :
    isFolder { machine with files := files ++ machine.files } names = machine.isFolder names := by
  refine Bool.eq_iff_iff.mpr ⟨fun hfolder => ?_, fun hfolder => ?_⟩
  · obtain ⟨folder, hmem, hbegins⟩ := isFolder_iff.mp hfolder
    refine isFolder_of_prefix hbegins ?_
    rcases mem_knownFolders_append.mp hmem with ⟨file, hnew, rfl⟩ | hold
    · exact h file hnew
    · exact isFolder_of_mem hold
  · obtain ⟨folder, hmem, hbegins⟩ := isFolder_iff.mp hfolder
    exact isFolder_iff.mpr ⟨folder, mem_knownFolders_append.mpr (.inr hmem), hbegins⟩

/-- The devices make no folder but their own, which is always there. -/
theorem isFolder_fed (machine : Machine) (input : List UInt8) (names : List String) :
    (machine.fed input).isFolder names = machine.isFolder names := by
  have hall : ∀ device ∈ devices input, device.1.dropLast = deviceFolder := by simp [devices]
  refine isFolder_append (fun device hmem => ?_) names
  rw [hall device hmem]
  exact isFolder_of_mem machine.deviceFolder_mem_knownFolders

/-! ### Walks -/

theorem look_eq_folder : machine.look names = .folder ↔
    endsTooLong names = false ∧ machine.isFolder names = true := by
  unfold look
  by_cases htooLong : endsTooLong names = true
  · simp [htooLong, Place.closed]
  · by_cases hfolder : machine.isFolder names = true
    · simp [htooLong, hfolder]
    · simp only [htooLong, hfolder]
      cases machine.file? names <;> simp

/-- A walk through folders succeeds also where there are more folders. -/
theorem enter_of_isFolder (hfolders : ∀ names, machine.isFolder names = true →
    machine'.isFolder names = true) : ∀ {folder : List String} (rest : List String),
      machine.enter folder rest = .ok names → machine'.enter folder rest = .ok names
  | folder, [], h => h
  | folder, name :: rest, h => by
    rw [enter] at h
    split at h
    · next hlook =>
      obtain ⟨hshort, hfolder⟩ := look_eq_folder.mp hlook
      have hlook' : machine'.look (step folder name) = .folder :=
        look_eq_folder.mpr ⟨hshort, hfolders _ hfolder⟩
      rw [enter, hlook']
      exact enter_of_isFolder hfolders rest h
    · cases h
    · cases h

theorem rowOf_of_isFolder
    (hfolders : ∀ names, machine.isFolder names = true → machine'.isFolder names = true)
    (hhome : machine'.home = machine.home) (h : machine.rowOf path = .ok names) :
    machine'.rowOf path = .ok names := by
  obtain ⟨folder, henter, hrow⟩ := bind_eq_ok.mp h
  refine bind_eq_ok.mpr ⟨folder, ?_, hrow⟩
  rw [start, hhome]
  exact enter_of_isFolder hfolders _ henter

theorem rowOf_fed (input : List UInt8) :
    (machine.fed input).rowOf path = .ok names ↔ machine.rowOf path = .ok names := by
  constructor
  · exact rowOf_of_isFolder (fun names h => (isFolder_fed machine input names).symm.trans h) rfl
  · exact rowOf_of_isFolder (fun names h => (isFolder_fed machine input names).trans h) rfl

/-- The names in a path are what lies between its strokes, where something does. -/
theorem namesOf_eq (path : String) : namesOf path =
    ((path.toList.splitOnP (· = '/')).map String.ofList).filter (· ≠ "") := by
  rw [namesOf, String.splitToList_of_valid]

theorem isFolder_start (machine : Machine) (path : String) :
    machine.isFolder (machine.start path) = true := by
  have hhome : machine.isFolder machine.home = true :=
    isFolder_of_mem machine.home_mem_knownFolders
  unfold start
  split
  · exact isFolder_of_prefix List.nil_prefix hhome
  · exact hhome

theorem isFolder_of_enter : ∀ {folder : List String} (rest : List String),
    machine.isFolder folder = true → machine.enter folder rest = .ok names →
      machine.isFolder names = true
  | _, [], hfolder, h => Except.ok.inj h ▸ hfolder
  | _, _ :: rest, _, h => by
    rw [enter] at h
    split at h
    · next hlook => exact isFolder_of_enter rest (look_eq_folder.mp hlook).2 h
    · cases h
    · cases h

/-- All names but the last that a path leads to are those of a folder. -/
theorem isFolder_dropLast_of_rowOf (h : machine.rowOf path = .ok names) :
    machine.isFolder names.dropLast = true := by
  obtain ⟨folder, henter, hrow⟩ := bind_eq_ok.mp h
  obtain rfl := Except.ok.inj hrow
  refine isFolder_of_prefix ?_ (isFolder_of_enter _ (isFolder_start machine path) henter)
  cases (namesOf path).getLast? with
  | none => exact List.dropLast_prefix folder
  | some name =>
    rw [Option.elim_some, step]
    split
    · exact List.dropLast_prefix folder
    · split
      · exact (List.dropLast_prefix _).trans (List.dropLast_prefix folder)
      · exact ⟨[], by rw [List.append_nil, List.dropLast_concat]⟩

/-! ### What a path leads to -/

theorem look_eq_nothing {fault : FileFault} : machine.look names = .nothing fault none ↔
    fault = .notFound ∧ endsTooLong names = false ∧ machine.isFolder names = false ∧
      machine.file? names = none := by
  unfold look
  by_cases htooLong : endsTooLong names = true
  · simp [htooLong, Place.closed]
  · by_cases hfolder : machine.isFolder names = true
    · simp [htooLong, hfolder]
    · cases hfound : machine.file? names <;> simp [htooLong, hfolder, eq_comm]

theorem look_eq_file : machine.look names = .file bytes ↔
    endsTooLong names = false ∧ machine.isFolder names = false ∧
      machine.file? names = some bytes := by
  unfold look
  by_cases htooLong : endsTooLong names = true
  · simp [htooLong, Place.closed]
  · by_cases hfolder : machine.isFolder names = true
    · simp [htooLong, hfolder]
    · cases hfound : machine.file? names <;> simp [htooLong, hfolder]

theorem isWritable_asFolder (place : Place) : place.asFolder.isWritable = false := by
  cases place <;> rfl

theorem place_eq_look (hne : path ≠ "") (hsize : path.utf8ByteSize ≤ pathLimit)
    (hend : path.toList.getLast? ≠ some '/') (hrow : machine.rowOf path = .ok names) :
    machine.place path = machine.look names := by
  unfold place
  rw [if_neg hne, if_neg (Nat.not_lt.mpr hsize), hrow]
  simp only [if_neg hend]

/-- Where a file is or can be made, the path leads through folders to a last name, and it asks for
no folder. -/
theorem exists_row_of_isWritable (h : (machine.place path).isWritable = true) :
    path ≠ "" ∧ path.utf8ByteSize ≤ pathLimit ∧ path.toList.getLast? ≠ some '/' ∧
      ∃ names, machine.rowOf path = .ok names := by
  unfold place at h
  by_cases hne : path = ""
  · rw [if_pos hne] at h
    cases h
  · rw [if_neg hne] at h
    by_cases hsize : pathLimit < path.utf8ByteSize
    · rw [if_pos hsize] at h
      cases h
    · rw [if_neg hsize] at h
      cases hrow : machine.rowOf path with
      | error fault =>
        rw [hrow] at h
        cases h
      | ok names =>
        rw [hrow] at h
        refine ⟨hne, Nat.not_lt.mp hsize, fun hend => ?_, names, rfl⟩
        simp only [if_pos hend, isWritable_asFolder] at h
        cases h

/-! ### Files that stay -/

/-- A machine has the folders of another, and all its files, with the same bytes. -/
structure Keeps (machine machine' : Machine) : Prop where
  home_eq : machine'.home = machine.home
  isFolder_eq : ∀ names, machine'.isFolder names = machine.isFolder names
  file?_eq : ∀ {names bytes}, machine.file? names = some bytes → machine'.file? names = some bytes

theorem Keeps.refl (machine : Machine) : machine.Keeps machine := ⟨rfl, fun _ => rfl, id⟩

theorem Keeps.trans {machine'' : Machine} (h : machine.Keeps machine')
    (h' : machine'.Keeps machine'') : machine.Keeps machine'' where
  home_eq := h'.home_eq.trans h.home_eq
  isFolder_eq := fun names => (h'.isFolder_eq names).trans (h.isFolder_eq names)
  file?_eq := fun hfile => h'.file?_eq (h.file?_eq hfile)

/-- While the command is fed, its machine still keeps what it kept. -/
theorem Keeps.fed (h : machine.Keeps machine') (input : List UInt8) :
    (machine.fed input).Keeps (machine'.fed input) where
  home_eq := h.home_eq
  isFolder_eq := fun names => by rw [isFolder_fed, isFolder_fed, h.isFolder_eq]
  file?_eq := fun {names bytes} hfile => by
    rw [file?_fed] at hfile ⊢
    cases hdevice : (devices input).lookup names with
    | none =>
      rw [hdevice, Option.none_or] at hfile
      rw [Option.none_or]
      exact h.file?_eq hfile
    | some content => rwa [hdevice] at hfile

theorem Keeps.rowOf_eq (h : machine.Keeps machine') (hrow : machine.rowOf path = .ok names) :
    machine'.rowOf path = .ok names := by
  have hfolders : ∀ names, machine.isFolder names = true → machine'.isFolder names = true :=
    fun names hfolder => (h.isFolder_eq names).trans hfolder
  exact rowOf_of_isFolder hfolders h.home_eq hrow

/-- A path that leads to a file leads to it also where the file is kept. -/
theorem Keeps.place_eq (h : machine.Keeps machine') (hplace : machine.place path = .file bytes) :
    machine'.place path = .file bytes := by
  have hwritable : (machine.place path).isWritable = true := by rw [hplace]; rfl
  obtain ⟨hne, hsize, hend, names, hrow⟩ := exists_row_of_isWritable hwritable
  rw [place_eq_look hne hsize hend hrow] at hplace
  obtain ⟨hshort, hfolder, hfile⟩ := look_eq_file.mp hplace
  rw [place_eq_look hne hsize hend (h.rowOf_eq hrow)]
  exact look_eq_file.mpr ⟨hshort, (h.isFolder_eq names).trans hfolder, h.file?_eq hfile⟩

/-! ### The new file -/

/-- A machine has the files of another and one more, where the path led to none and now leads to
it; it is the same in all else. -/
def Gains (machine machine' : Machine) (path : String) (bytes : List UInt8) : Prop :=
  ∃ names, machine.rowOf path = .ok names ∧ machine.file? names = none ∧
    machine' = { machine with files := (names, bytes) :: machine.files } ∧
    ∀ input, (machine'.surroundings input).place path = .file bytes

theorem Gains.place_eq (h : machine.Gains machine' path bytes) (input : List UInt8) :
    (machine'.surroundings input).place path = .file bytes := by
  obtain ⟨-, -, -, -, hthere⟩ := h
  exact hthere input

/-- A write does not change what is under other names. -/
theorem file?_write_of_ne {names' : List String} (hrow : machine.rowOf path = .ok names)
    (hne : names' ≠ names) (bytes : List UInt8) :
    (machine.write path bytes).file? names' = machine.file? names' := by
  unfold write
  rw [hrow]
  simp only
  split
  · exact file?_put_of_ne hne machine bytes
  · rfl

section Free

variable {input : List UInt8} {fault : FileFault}
  (h : (machine.surroundings input).place path = .nothing fault none)

include h

/-- Where a path leads to nothing and a file can be made, its names are those of no file, of no
folder and of no device, and the path asks for no folder. -/
theorem exists_free_names : path ≠ "" ∧ path.utf8ByteSize ≤ pathLimit ∧
    path.toList.getLast? ≠ some '/' ∧ ∃ names, machine.rowOf path = .ok names ∧
      isDevice names = false ∧ machine.look names = .nothing fault none := by
  have hplace : (machine.fed input).place path = .nothing fault none := h
  have hwritable : ((machine.fed input).place path).isWritable = true := by rw [hplace]; rfl
  obtain ⟨hne, hsize, hend, names, hrow⟩ := exists_row_of_isWritable hwritable
  rw [place_eq_look hne hsize hend hrow] at hplace
  obtain ⟨hfault, hshort, hfolder, hfound⟩ := look_eq_nothing.mp hplace
  rw [isFolder_fed] at hfolder
  rw [file?_fed, Option.or_eq_none_iff] at hfound
  exact ⟨hne, hsize, hend, names, (rowOf_fed input).mp hrow, (isDevice_eq_false input).mpr hfound.1,
    look_eq_nothing.mpr ⟨hfault, hshort, hfolder, hfound.2⟩⟩

/-- There a write makes one file more. -/
theorem exists_write_eq (bytes : List UInt8) : ∃ names, machine.rowOf path = .ok names ∧
    isDevice names = false ∧ machine.look names = .nothing fault none ∧
      machine.write path bytes = { machine with files := (names, bytes) :: machine.files } := by
  obtain ⟨hne, hsize, hend, names, hrow, hdevice, hlook⟩ := exists_free_names h
  obtain ⟨-, -, -, hnew⟩ := look_eq_nothing.mp hlook
  refine ⟨names, hrow, hdevice, hlook, ?_⟩
  rw [write, hrow]
  simp only [place_eq_look hne hsize hend hrow, hlook, Place.isWritable, if_true]
  exact put_eq_cons hdevice hnew bytes

theorem keeps_write (bytes : List UInt8) : machine.Keeps (machine.write path bytes) := by
  obtain ⟨free, hrow, -, hlook, hwrite⟩ := exists_write_eq h bytes
  obtain ⟨-, -, -, hnew⟩ := look_eq_nothing.mp hlook
  refine ⟨by rw [hwrite], fun names => ?_, fun {names content} hfile => ?_⟩
  · rw [hwrite]
    exact isFolder_append (List.forall_mem_singleton.mpr (isFolder_dropLast_of_rowOf hrow)) names
  · have hne : names ≠ free := by
      rintro rfl
      rw [hfile] at hnew
      cases hnew
    rw [file?_write_of_ne hrow hne, hfile]

/-- Where a path leads to nothing and a file can be made, writing makes one. -/
theorem gains_write (bytes : List UInt8) : machine.Gains (machine.write path bytes) path bytes := by
  obtain ⟨names, hrow, hdevice, hlook, hwrite⟩ := exists_write_eq h bytes
  obtain ⟨hne, hsize, hend, -⟩ := exists_free_names h
  obtain ⟨-, hshort, hfolder, hnew⟩ := look_eq_nothing.mp hlook
  refine ⟨names, hrow, hnew, hwrite, fun input' => ?_⟩
  have hkeeps := (keeps_write h bytes).fed input'
  have hrow' := hkeeps.rowOf_eq ((rowOf_fed input').mpr hrow)
  have hthere : ((machine.write path bytes).fed input').file? names = some bytes := by
    rw [file?_fed, (isDevice_eq_false input').mp hdevice, hwrite, file?, List.lookup_cons_self]
    rfl
  have hfile : ((machine.write path bytes).fed input').look names = .file bytes := by
    refine look_eq_file.mpr ⟨hshort, ?_, hthere⟩
    rw [hkeeps.isFolder_eq, isFolder_fed, hfolder]
  exact (place_eq_look hne hsize hend hrow').trans hfile

end Free

end Machine
end DataTerms
