-- Where scripts go. The folder of a script is named by the namespace of its document, and its file
-- by the document's own name. Documents with different stems have different files, unless both take
-- the index file of the output directory.
import Mathlib.Data.List.TakeWhile
import Thrift.Proofs.Places
import Thrift.Proofs.Rendering

namespace Thrift

/-! ## Names of files -/

namespace Path

theorem slash_not_mem_fileName {path name : String} (h : fileName path = some name) :
    '/' ∉ name.toList := by
  unfold fileName at h
  split at h
  · cases h
  · have hmem := List.mem_of_getLast? h
    exact fun hslash => (mem_of_mem_splitOn (List.mem_filter.mp hmem).1 hslash).2 rfl

theorem slash_not_mem_fileStem {path stem : String} (h : fileStem path = some stem) :
    '/' ∉ stem.toList := by
  obtain ⟨name, hname, rfl⟩ := Option.map_eq_some_iff.mp h
  have hslash := slash_not_mem_fileName hname
  dsimp only
  split
  · rw [String.toList_ofList]
    exact fun hmem => hslash (List.mem_of_mem_take hmem)
  · exact hslash

end Path

/-- The last segment of a namespace has no dots. -/
theorem dot_not_mem_baseName (name : String) : '.' ∉ (baseName name).toList := by
  rw [baseName, String.toList_ofList, lastSegment, List.mem_reverse]
  intro hdot
  have hne := List.mem_takeWhile_imp (p := fun c => c != '.') hdot
  exact absurd hne (by decide)

namespace Cli

open Directory (placeOf way wayTo)

namespace Directory

/-- A part that is the name of a file or a folder. -/
theorem next_name {p : Place} {part : String} (hblank : part ≠ "") (hdot : part ≠ ".")
    (hdots : part ≠ "..") : next p part = p ++ [part] := by
  simp [next, hblank, hdot, hdots]

theorem next_script (p : Place) (stem : String) :
    next p (stem ++ ".ts") = p ++ [stem ++ ".ts"] := by
  have hlast : (stem ++ ".ts").toList.getLast? = some 's' := by
    have hts : (".ts" : String).toList = ['.', 't', 's'] := by decide
    rw [String.toList_append, hts, List.getLast?_append]
    rfl
  refine next_name (fun h => ?_) (fun h => ?_) (fun h => ?_) <;>
  · rw [h] at hlast
    exact absurd hlast (by decide)

/-- Parts without dots only lead downwards. -/
theorem mem_way_of_no_dots {p q : Place} {parts : List String}
    (hdots : ∀ part ∈ parts, '.' ∉ part.toList) (hq : q ∈ p :: way p parts) :
    ∃ names : List String, q = p ++ names ∧ ∀ name ∈ names, '.' ∉ name.toList := by
  induction parts generalizing p with
  | nil => exact ⟨[], by simpa [way] using hq, fun _ h => absurd h List.not_mem_nil⟩
  | cons part parts ih =>
    obtain ⟨hpart, hparts⟩ := List.forall_mem_cons.mp hdots
    rcases List.mem_cons.mp hq with rfl | hq
    · exact ⟨[], (List.append_nil _).symm, fun _ h => absurd h List.not_mem_nil⟩
    · obtain ⟨names, rfl, hnames⟩ := ih hparts hq
      by_cases hblank : part = ""
      · subst hblank
        exact ⟨names, rfl, hnames⟩
      · have hnext : next p part = p ++ [part] := by
          refine next_name hblank ?_ ?_ <;>
          · rintro rfl
            exact hpart (by decide)
        refine ⟨part :: names, ?_, List.forall_mem_cons.mpr ⟨hpart, hnames⟩⟩
        rw [hnext, List.append_assoc, List.singleton_append]

end Directory

/-! ## Jobs -/

/-- A document of a run, with the script that it is to get. Its path is a Unicode text, so its stem
tells it apart from a document of any other stem. A path from the root is taken not to lead into
the directory of the run. -/
structure Job where
  path : String
  document : Document
  compiled : Compiled
  text : String

namespace Job

/-- The document loads and compiles, and this is its script. -/
structure Ready (settings : Script.Settings) (d : Directory) (j : Job) : Prop where
  loads : load d j.path = .ok j.document
  compiles : j.document.compile = .ok j.compiled
  renders : Script.file settings j.document j.compiled = .ok j.text

def stem (j : Job) : String := (Path.fileStem j.path).getD "index"

/-- The file that the script is written to. -/
def target (outDir : String) (j : Job) : String :=
  (Namespace.ofDocument outDir j.document j.stem).path

/-- The place of that file. -/
def home (outDir : String) (j : Job) : Place := placeOf (j.target outDir)

/-- The namespace line that places the script, if there is one. -/
def line? (j : Job) : Option NamespaceLine :=
  (Namespace.lineOf j.document "js").or (Namespace.lineOf j.document "java")

/-- The folder under the output directory. -/
def folder (j : Job) : String := j.line?.elim "" fun line => baseName line.name

/-- The name of the file, but for its extension. -/
def file (j : Job) : String := j.line?.elim "index" fun _ => j.stem

/-- The script is the index file of the output directory. -/
def TakesIndex (outDir : String) (j : Job) : Prop :=
  j.file = "index" ∧ placeOf (Path.join outDir j.folder) = placeOf outDir

/-- The folder does not start at the root. -/
def Within (j : Job) : Prop := Path.isAbsolute j.folder = false

theorem target_eq (outDir : String) (j : Job) :
    j.target outDir = Path.join (Path.join outDir j.folder) (j.file ++ ".ts") := by
  unfold target Namespace.ofDocument folder file
  rw [← line?]
  cases j.line? with
  | none =>
    have hblank : baseName "" = "" := by decide
    dsimp only [Option.elim, Namespace.filePath]
    rw [hblank]
  | some line => rfl

theorem slash_not_mem_stem (j : Job) : '/' ∉ j.stem.toList := by
  unfold stem
  rcases h : Path.fileStem j.path with _ | stem
  · decide
  · exact Path.slash_not_mem_fileStem h

theorem slash_not_mem_script (j : Job) : '/' ∉ (j.file ++ ".ts").toList := by
  have hts : (".ts" : String).toList = ['.', 't', 's'] := by decide
  have hfile : '/' ∉ j.file.toList := by
    unfold file
    cases j.line? with
    | none => exact (by decide : '/' ∉ "index".toList)
    | some line => exact j.slash_not_mem_stem
  rw [String.toList_append, hts, List.mem_append]
  rintro (h | h)
  · exact hfile h
  · exact absurd h (by decide)

theorem dot_not_mem_folder {j : Job} {part : String} (h : part ∈ j.folder.splitOn "/") :
    '.' ∉ part.toList := by
  intro hdot
  have hfolder := (Path.mem_of_mem_splitOn h hdot).1
  unfold folder at hfolder
  cases hline : j.line? with
  | none =>
    rw [hline] at hfolder
    exact absurd hfolder (by decide)
  | some line =>
    rw [hline] at hfolder
    exact dot_not_mem_baseName line.name hfolder

theorem home_eq (outDir : String) (j : Job) :
    j.home outDir = placeOf (Path.join outDir j.folder) ++ [j.file ++ ".ts"] := by
  have hslash := j.slash_not_mem_script
  have hrelative : Path.isAbsolute (j.file ++ ".ts") = false := by
    rw [Path.isAbsolute, beq_eq_false_iff_ne]
    exact fun hhead => hslash (List.mem_of_mem_head? hhead)
  rw [home, target_eq, Directory.placeOf_join hrelative, Path.splitOn_eq_singleton hslash,
    List.foldl_cons, List.foldl_nil, Directory.next_script]

/-- Documents with different stems have different files unless both take the index file. -/
theorem home_ne {outDir : String} {a b : Job} (hstem : a.stem ≠ b.stem)
    (hindex : ¬ (a.TakesIndex outDir ∧ b.TakesIndex outDir)) : a.home outDir ≠ b.home outDir := by
  rw [home_eq, home_eq]
  intro heq
  obtain ⟨hplace, hname⟩ := List.append_inj' heq rfl
  have hfile : a.file = b.file := (String.append_left_inj ".ts").mp (List.singleton_inj.mp hname)
  have hblank : ∀ j : Job, j.line? = none →
      j.file = "index" ∧ placeOf (Path.join outDir j.folder) = placeOf outDir := by
    intro j hline
    have hfolder : j.folder = "" := by rw [folder, hline]; rfl
    refine ⟨by rw [file, hline]; rfl, ?_⟩
    rw [hfolder, Directory.placeOf_join (by decide), Path.splitOn_blank]
    rfl
  refine hindex ?_
  rcases ha : a.line? with _ | la
  · obtain ⟨hfa, hpa⟩ := hblank a ha
    exact ⟨⟨hfa, hpa⟩, hfile.symm.trans hfa, hplace.symm.trans hpa⟩
  · rcases hb : b.line? with _ | lb
    · obtain ⟨hfb, hpb⟩ := hblank b hb
      exact ⟨⟨hfile.trans hfb, hplace.trans hpb⟩, hfb, hpb⟩
    · rw [file, file, ha, hb] at hfile
      exact absurd hfile hstem

/-- A script is below the output directory unless its folder starts at the root. -/
theorem home_within (outDir : String) {j : Job} (h : j.Within) :
    ∃ names : List String, (∀ name ∈ names, '.' ∉ name.toList) ∧
      j.home outDir = placeOf outDir ++ names ++ [j.file ++ ".ts"] := by
  have hplace : placeOf (Path.join outDir j.folder) ∈
      placeOf outDir :: way (placeOf outDir) (j.folder.splitOn "/") := by
    rw [Directory.placeOf_join h]
    exact Directory.foldl_next_mem_way _ _
  obtain ⟨names, hnames, hdots⟩ :=
    Directory.mem_way_of_no_dots (fun part hpart => dot_not_mem_folder hpart) hplace
  exact ⟨names, hdots, by rw [home_eq, hnames]⟩

/-- The way to the folder of a script goes to the output directory and down from there. -/
theorem mem_wayTo_parent {outDir : String} {j : Job} (h : j.Within) {q : Place} :
    q ∈ wayTo (Path.parent (j.target outDir)) ↔
      q ∈ wayTo outDir ∨ q ∈ way (placeOf outDir) (j.folder.splitOn "/") := by
  rw [target_eq, Directory.mem_wayTo_parent j.slash_not_mem_script, Directory.mem_wayTo_join h]

/-- A script that can be written is in no other script's way. -/
theorem home_not_mem_wayTo {outDir : String} {a b : Job} (ha : a.Within) (hb : b.Within)
    {d e : Directory} {text : String} (hadd : d.add (a.target outDir) text = .ok e) :
    a.home outDir ∉ wayTo (Path.parent (b.target outDir)) := by
  intro hmem
  have hadded := Directory.added_of_add hadd
  rcases (mem_wayTo_parent hb).mp hmem with hmem | hmem
  · -- Above the output directory it would be a folder that its own way leads through.
    have hfolder := (hadded.folders _).mpr (.inr ((mem_wayTo_parent ha).mpr (.inl hmem)))
    have hno := hadded.no_folder
    rw [home] at hfolder
    rw [hfolder] at hno
    cases hno
  · obtain ⟨names, hdots, hhome⟩ := home_within outDir ha
    obtain ⟨names', hnames', hdots'⟩ := Directory.mem_way_of_no_dots
      (fun part hpart => dot_not_mem_folder hpart) (List.mem_cons_of_mem _ hmem)
    rw [hhome, List.append_assoc] at hnames'
    have hscript : a.file ++ ".ts" ∈ names' := by
      rw [← List.append_cancel_left hnames']
      exact List.mem_append_right _ (List.mem_singleton.mpr rfl)
    refine hdots' _ hscript ?_
    rw [String.toList_append]
    exact List.mem_append_right _ (by decide)

end Job

end Cli

end Thrift
