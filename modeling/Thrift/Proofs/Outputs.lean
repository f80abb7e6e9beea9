-- What a run of the generator leaves in the directory. Scripts with places of their own are all
-- found in their files, and nothing else in the directory has changed.
import Thrift.Proofs.Targets

namespace Thrift

/-! ## Scripts are no documents -/

theorem head?_toList_append {a : String} {c : Char} (h : a.toList.head? = some c) (b : String) :
    (a ++ b).toList.head? = some c := by
  rw [String.toList_append, List.head?_append, h]
  rfl

theorem Script.head?_header (settings : Settings) :
    (header settings).toList.head? = some '/' :=
  head?_toList_append (head?_toList_append (by decide) _) _

/-- No script is taken for a document: it starts with a comment. -/
theorem Document.ofText_script {settings : Script.Settings} {d : Document} {c : Compiled}
    {text : String} (h : Script.file settings d c = .ok text) :
    ∃ fault, Document.ofText text = .error fault := by
  have hhead : text.toList.head? = some '/' := by
    rcases ht : SymbolTable.ofDocument d with cause | t
    · rw [Script.file, ht] at h
      cases h
    · rw [Script.file, ht] at h
      dsimp only at h
      obtain ⟨body, -, h⟩ := Steps.except_bind_eq_ok_iff.mp h
      injection h with h
      rw [← h]
      exact head?_toList_append (head?_toList_append (Script.head?_header settings) _) _
  obtain ⟨rest, hrest⟩ := List.head?_eq_some_iff.mp hhead
  refine ⟨.malformed, ?_⟩
  rw [ofText, hrest]
  rfl

namespace Cli

open Directory (placeOf wayTo)

/-! ## All files of a run -/

/-- A directory to which all scripts are added, one after the other. -/
def addAll (outDir : String) (d : Directory) (jobs : List Job) : Except FileFault Directory :=
  jobs.foldlM (fun d j => d.add (j.target outDir) j.text) d

namespace Directory

variable {d e : Directory} {path path' text text' : String}

theorem read_eq_ok_iff : d.read path = .ok text ↔ ∃ p, d.place path = .ok p ∧
    d.isFolder p = false ∧ d.files.lookup p = some text := by
  unfold read
  rw [Steps.except_bind_eq_ok_iff]
  refine exists_congr fun p => and_congr_right fun _ => ?_
  rcases d.isFolder p with _ | _
  · rcases d.files.lookup p with _ | found
    · constructor
      · rintro ⟨⟩
      · rintro ⟨-, ⟨⟩⟩
    · constructor
      · rintro ⟨⟩
        exact ⟨rfl, rfl⟩
      · rintro ⟨-, ⟨⟩⟩
        rfl
  · constructor
    · rintro ⟨⟩
    · rintro ⟨⟨⟩, -⟩

/-- What is read once a file was added: its text where the path leads to it, and what was read
before anywhere else. -/
theorem Added.read (h : Added d path text e) (hread : d.read path' = .ok text') :
    e.read path' = .ok (if placeOf path' = placeOf path then text else text') := by
  obtain ⟨p, hp, hfolder, hlookup⟩ := read_eq_ok_iff.mp hread
  obtain ⟨rfl, hmono⟩ := place_eq_ok hp
  have hplace := hmono e fun q hq => (h.folders q).mpr (.inl hq)
  refine read_eq_ok_iff.mpr ⟨_, hplace, ?_⟩
  split
  · rename_i heq
    rw [heq]
    exact ⟨h.no_folder, h.text_eq⟩
  · rename_i hne
    refine ⟨Bool.eq_false_iff.mpr fun hq => ?_, (h.others _ hne).trans hlookup⟩
    have hfile : d.isFile (placeOf path') = true := by rw [isFile, hlookup]; rfl
    rcases (h.folders _).mp hq with hq | hq
    · rw [hfolder] at hq
      cases hq
    · rcases h.clear _ hq with hq | hq
      · rw [hfolder] at hq
        cases hq
      · rw [hfile] at hq
        cases hq

theorem Added.read_self (h : Added d path text e) : e.read path = .ok text :=
  read_eq_ok_iff.mpr ⟨_, h.place_eq, h.no_folder, h.text_eq⟩

end Directory

section Runs

variable {outDir : String} {d e : Directory} {j : Job} {jobs : List Job}

theorem addAll_cons_eq_ok_iff : addAll outDir d (j :: jobs) = .ok e ↔
    ∃ d', d.add (j.target outDir) j.text = .ok d' ∧ addAll outDir d' jobs = .ok e :=
  Steps.except_bind_eq_ok_iff

theorem read_addAll {path text : String} (h : addAll outDir d jobs = .ok e)
    (hread : d.read path = .ok text) (hpath : placeOf path ∉ jobs.map (Job.home outDir)) :
    e.read path = .ok text := by
  induction jobs generalizing d with
  | nil =>
    cases h
    exact hread
  | cons j jobs ih =>
    obtain ⟨d', hd', h⟩ := addAll_cons_eq_ok_iff.mp h
    rw [List.map_cons, List.mem_cons, not_or] at hpath
    have hne : placeOf path ≠ placeOf (j.target outDir) := hpath.1
    have hnext := (Directory.added_of_add hd').read hread
    rw [if_neg hne] at hnext
    exact ih h hnext hpath.2

theorem lookup_addAll {p : Place} (h : addAll outDir d jobs = .ok e)
    (hp : p ∉ jobs.map (Job.home outDir)) : e.files.lookup p = d.files.lookup p := by
  induction jobs generalizing d with
  | nil =>
    cases h
    rfl
  | cons j jobs ih =>
    obtain ⟨d', hd', h⟩ := addAll_cons_eq_ok_iff.mp h
    rw [List.map_cons, List.mem_cons, not_or] at hp
    exact (ih h hp.2).trans ((Directory.added_of_add hd').others p hp.1)

/-- Scripts with places of their own are all found. -/
theorem read_of_addAll (h : addAll outDir d jobs = .ok e)
    (hhomes : (jobs.map (Job.home outDir)).Nodup) (hj : j ∈ jobs) :
    e.read (j.target outDir) = .ok j.text := by
  induction jobs generalizing d with
  | nil => exact absurd hj List.not_mem_nil
  | cons k jobs ih =>
    obtain ⟨d', hd', hrest⟩ := addAll_cons_eq_ok_iff.mp h
    obtain ⟨hk, hhomes⟩ := List.nodup_cons.mp hhomes
    rcases List.mem_cons.mp hj with rfl | hj
    · exact read_addAll hrest (Directory.added_of_add hd').read_self hk
    · exact ih hrest hhomes hj

/-- What the second directory has more than the first one comes from scripts. -/
structure GrownBy (outDir : String) (done : List Job) (d d' : Directory) : Prop where
  folders : ∀ q, d'.isFolder q = true ↔ d.isFolder q = true ∨
    ∃ j ∈ done, q ∈ wayTo (Path.parent (j.target outDir))
  files : ∀ q, q ∉ done.map (Job.home outDir) → d'.files.lookup q = d.files.lookup q

namespace GrownBy

variable {done : List Job} {d' : Directory}

theorem nil : GrownBy outDir [] d d := ⟨fun q => by simp, fun _ _ => rfl⟩

theorem concat (h : GrownBy outDir done d d') (hadded : d'.Added (j.target outDir) j.text e) :
    GrownBy outDir (done ++ [j]) d e where
  folders q := by
    rw [hadded.folders, h.folders, or_assoc]
    simp [or_and_right, exists_or]
  files q hq := by
    rw [List.map_append, List.mem_append, not_or] at hq
    exact (hadded.others q (by simpa [Job.home] using hq.2)).trans (h.files q hq.1)

/-- A script that can be written on its own can be written behind others: it is not in the way of
their folders, and they are not in the way of its own. -/
theorem add_succeeds (h : GrownBy outDir done d d')
    (hdone : ∀ i ∈ done, i.Within ∧ ∃ e, d.add (i.target outDir) i.text = .ok e)
    (hwithin : j.Within) {f : Directory} (hf : d.add (j.target outDir) j.text = .ok f) :
    ∃ e, d'.add (j.target outDir) j.text = .ok e := by
  have hadded := Directory.added_of_add hf
  have hfree : d'.isFolder (j.home outDir) = false := by
    refine Bool.eq_false_iff.mpr fun hq => ?_
    rcases (h.folders _).mp hq with hq | ⟨i, hi, hq⟩
    · have hlater := (hadded.folders _).mpr (.inl hq)
      rw [Job.home, hadded.no_folder] at hlater
      cases hlater
    · exact Job.home_not_mem_wayTo hwithin (hdone i hi).1 hf hq
  have hclear : ∀ q ∈ wayTo (Path.parent (j.target outDir)),
      d'.isFolder q = true ∨ d'.isFile q = false := by
    intro q hq
    have hnot : q ∉ done.map (Job.home outDir) := by
      intro hmem
      obtain ⟨i, hi, rfl⟩ := List.mem_map.mp hmem
      obtain ⟨hi, _, hadd⟩ := hdone i hi
      exact Job.home_not_mem_wayTo hi hwithin hadd hq
    rw [Directory.isFile, h.files q hnot, ← Directory.isFile]
    exact (hadded.clear q hq).imp_left fun hq => (h.folders q).mpr (.inl hq)
  exact Directory.add_of_clear hf (fun q hq => (h.folders q).mpr (.inl hq)) hclear hfree

end GrownBy

/-- Scripts that can be written each on its own can be written all together. -/
theorem addAll_succeeds
    (halone : ∀ j ∈ jobs, j.Within ∧ ∃ e, d.add (j.target outDir) j.text = .ok e) :
    ∃ e, addAll outDir d jobs = .ok e := by
  suffices h : ∀ done d', GrownBy outDir done d d' → (∀ j ∈ done ++ jobs, j.Within ∧
      ∃ e, d.add (j.target outDir) j.text = .ok e) → ∃ e, addAll outDir d' jobs = .ok e from
    h [] d .nil halone
  clear halone
  induction jobs with
  | nil => exact fun _ d' _ _ => ⟨d', rfl⟩
  | cons j jobs ih =>
    intro done d' hgrown halone
    obtain ⟨hdone, hjobs⟩ := List.forall_mem_append.mp halone
    obtain ⟨⟨hwithin, f, hf⟩, -⟩ := List.forall_mem_cons.mp hjobs
    obtain ⟨d'', hd''⟩ := hgrown.add_succeeds hdone hwithin hf
    obtain ⟨e, he⟩ := ih (done ++ [j]) d'' (hgrown.concat (Directory.added_of_add hd''))
      (by simpa using halone)
    exact ⟨e, addAll_cons_eq_ok_iff.mpr ⟨d'', hd'', he⟩⟩

/-! ## The command -/

variable {settings : Script.Settings} {w w' : World}

theorem load_eq_ok_iff {path : String} {document : Document} : load d path = .ok document ↔
    ∃ text, d.read path = .ok text ∧ Document.ofText text = .ok document := by
  unfold load
  rcases d.read path with cause | text
  · simp
  · rcases h : Document.ofText text with cause | found <;> simp [h]

/-- A file is written where it can be added. -/
theorem writeFile_eq_ok_iff {path text : String} : writeFile path text w = .ok () w' ↔
    ∃ e, w.directory.add path text = .ok e ∧ w' = { w with directory := e } := by
  rw [writeFile, Steps.bind_ok (t := w) (by rfl)]
  unfold Directory.add
  rcases w.directory.makeFolders (Path.parent path) with cause | made
  · constructor
    · rintro ⟨⟩
    · rintro ⟨_, ⟨⟩, -⟩
  · dsimp only
    change _ ↔ ∃ e, made.write path text = .ok e ∧ _
    rcases made.write path text with cause | e
    · constructor
      · rintro ⟨⟩
      · rintro ⟨_, ⟨⟩, -⟩
    · constructor
      · rintro ⟨⟩
        exact ⟨e, rfl, rfl⟩
      · rintro ⟨_, ⟨⟩, rfl⟩
        rfl

/-- A job that is ready is done exactly when its script can be added. -/
theorem Job.Ready.generateOne_iff (h : j.Ready settings w.directory) :
    (∃ w', generateOne settings outDir j.path w = .ok () w' ∧ w'.directory = e) ↔
      w.directory.add (j.target outDir) j.text = .ok e := by
  rw [generateOne_eq h.loads h.compiles, render, h.renders]
  dsimp only
  constructor
  · rintro ⟨w', hw', rfl⟩
    obtain ⟨_, w₁, hwrite, hw'⟩ := Steps.bind_eq_ok_iff.mp hw'
    obtain ⟨e, he, rfl⟩ := writeFile_eq_ok_iff.mp hwrite
    cases hw'
    exact he
  · intro he
    have hwrite := writeFile_eq_ok_iff (w := w.announced j.path).mpr ⟨e, he, rfl⟩
    exact ⟨_, (Steps.bind_ok hwrite _).trans rfl, rfl⟩

/-- What is found at the path of a document is this document or none at all. -/
def Job.Stands (d : Directory) (j : Job) : Prop :=
  ∃ text, d.read j.path = .ok text ∧
    ∀ document, Document.ofText text = .ok document → document = j.document

theorem Job.Ready.stands (h : j.Ready settings d) : j.Stands d := by
  obtain ⟨text, hread, htext⟩ := load_eq_ok_iff.mp h.loads
  exact ⟨text, hread, fun document hdocument => Except.ok.inj (hdocument.symm.trans htext)⟩

/-- A script in the place of a document is none. -/
theorem Job.Stands.added {a : Job} (h : j.Stands d)
    (ha : Script.file settings a.document a.compiled = .ok a.text)
    (hadded : d.Added (a.target outDir) a.text e) : j.Stands e := by
  obtain ⟨text, hread, htext⟩ := h
  refine ⟨_, hadded.read hread, fun document hdocument => ?_⟩
  split at hdocument
  · obtain ⟨fault, hfault⟩ := Document.ofText_script ha
    rw [hfault] at hdocument
    cases hdocument
  · exact htext document hdocument

theorem Job.Ready.added {a : Job} (h : j.Ready settings d)
    (hadded : d.Added (a.target outDir) a.text e) (hne : placeOf j.path ≠ a.home outDir) :
    j.Ready settings e := by
  obtain ⟨text, hread, htext⟩ := load_eq_ok_iff.mp h.loads
  have hplace : placeOf j.path ≠ placeOf (a.target outDir) := hne
  have hnext := hadded.read hread
  rw [if_neg hplace] at hnext
  exact ⟨load_eq_ok_iff.mpr ⟨text, hnext, htext⟩, h.compiles, h.renders⟩

/-- No script is written over a document that is still to be read. -/
def Spared (outDir : String) (jobs : List Job) : Prop :=
  jobs.Pairwise fun a b => placeOf b.path ≠ a.home outDir

theorem generateAll_cons : (((j :: jobs).map Job.path).forM (generateOne settings outDir)) w =
    (generateOne settings outDir j.path >>= fun _ =>
      (jobs.map Job.path).forM (generateOne settings outDir)) w := rfl

/-- A run that succeeds has added all scripts. -/
theorem addAll_of_generateAll (hstands : ∀ j ∈ jobs, j.Stands w.directory)
    (hrenders : ∀ j ∈ jobs, j.document.compile = .ok j.compiled ∧
      Script.file settings j.document j.compiled = .ok j.text)
    (h : (jobs.map Job.path).forM (generateOne settings outDir) w = .ok () w') :
    addAll outDir w.directory jobs = .ok w'.directory := by
  induction jobs generalizing w with
  | nil =>
    cases h
    rfl
  | cons j jobs ih =>
    rw [generateAll_cons] at h
    obtain ⟨_, w₁, hfirst, hrest⟩ := Steps.bind_eq_ok_iff.mp h
    obtain ⟨hj, hstands⟩ := List.forall_mem_cons.mp hstands
    obtain ⟨⟨hcompile, hfile⟩, hrenders⟩ := List.forall_mem_cons.mp hrenders
    have hload : load w.directory j.path = .ok j.document := by
      obtain ⟨c, hc⟩ := checkOne_of_generateOne hfirst
      obtain ⟨document, hdocument, -⟩ := checkOne_eq_ok_iff.mp hc
      obtain ⟨text, hread, htext⟩ := load_eq_ok_iff.mp hdocument
      obtain ⟨text', hread', honly⟩ := hj
      cases hread.symm.trans hread'
      exact honly document htext ▸ hdocument
    have hready : j.Ready settings w.directory := ⟨hload, hcompile, hfile⟩
    have hadd := hready.generateOne_iff.mp ⟨w₁, hfirst, rfl⟩
    refine addAll_cons_eq_ok_iff.mpr ⟨w₁.directory, hadd, ih (fun k hk => ?_) hrenders hrest⟩
    exact (hstands k hk).added hfile (Directory.added_of_add hadd)

/-- Where all scripts can be added, a run that spares the documents succeeds. -/
theorem generateAll_of_addAll (hready : ∀ j ∈ jobs, j.Ready settings w.directory)
    (hspared : Spared outDir jobs) (h : addAll outDir w.directory jobs = .ok e) :
    ∃ w', (jobs.map Job.path).forM (generateOne settings outDir) w = .ok () w' := by
  induction jobs generalizing w with
  | nil => exact ⟨w, rfl⟩
  | cons j jobs ih =>
    obtain ⟨d', hadd, hrest⟩ := addAll_cons_eq_ok_iff.mp h
    obtain ⟨hj, hready⟩ := List.forall_mem_cons.mp hready
    obtain ⟨hnext, hspared⟩ := List.pairwise_cons.mp hspared
    obtain ⟨w₁, hfirst, rfl⟩ := hj.generateOne_iff.mpr hadd
    obtain ⟨w', hw'⟩ := ih (w := w₁)
      (fun k hk => (hready k hk).added (Directory.added_of_add hadd) (hnext k hk)) hspared hrest
    rw [generateAll_cons, Steps.bind_ok hfirst]
    exact ⟨w', hw'⟩

/-- A run that spares the documents only fails where a folder or a file cannot be made. -/
theorem generateAll_fault (hready : ∀ j ∈ jobs, j.Ready settings w.directory)
    (hspared : Spared outDir jobs) {fault : RunFault}
    (h : (jobs.map Job.path).forM (generateOne settings outDir) w = .error fault w') :
    fault.OfFiles := by
  induction jobs generalizing w with
  | nil => cases h
  | cons j jobs ih =>
    obtain ⟨hj, hready⟩ := List.forall_mem_cons.mp hready
    obtain ⟨hnext, hspared⟩ := List.pairwise_cons.mp hspared
    rw [generateAll_cons] at h
    rcases Steps.bind_eq_error_iff.mp h with hfirst | ⟨_, w₁, hfirst, hrest⟩
    · rw [generateOne_eq hj.loads hj.compiles] at hfirst
      exact render_fault hj.renders hfirst
    · have hadd := hj.generateOne_iff.mp ⟨w₁, hfirst, rfl⟩
      exact ih (fun k hk => (hready k hk).added (Directory.added_of_add hadd) (hnext k hk))
        hspared hrest

theorem generate_eq {configPath : String} {config : Config}
    (hconfig : loadConfig w.directory configPath = .ok config) (documents : List String)
    (out : Option String) : generate configPath documents out w =
      (documents.forM (generateOne config.scriptSettings (config.outputTo out)) >>= fun _ =>
        say s!"✓ Generated {documents.length} file(s) in {config.outputTo out}") w := by
  unfold generate
  rw [Steps.bind_ok (t := w) (by rfl), hconfig, Steps.bind_ok (t := w) (by rfl)]

/-- The last line that is said changes nothing in the directory. -/
theorem generate_of_all {configPath : String} {config : Config} {documents : List String}
    (out : Option String) (hconfig : loadConfig w.directory configPath = .ok config)
    (h : documents.forM (generateOne config.scriptSettings (config.outputTo out)) w = .ok () w') :
    ∃ w₁, generate configPath documents out w = .ok () w₁ ∧ w₁.directory = w'.directory := by
  rw [generate_eq hconfig, Steps.bind_ok h]
  exact ⟨_, rfl, rfl⟩

end Runs

/-- Documents with different stems get scripts in different places, all of them below the output
directory but for those whose namespace starts at the root, unless two documents take the index
file. A run that succeeds has written each script into its file and nothing else. It only fails
where a folder or a file cannot be made, or when a script was written over a document before its
turn; and when each script can be written on its own, the run succeeds. -/
theorem generate_keeps_outputs {w : World} {configPath outDir : String} {config : Config}
    (out : Option String) {jobs : List Job}
    (hconfig : loadConfig w.directory configPath = .ok config)
    (hout : config.outputTo out = outDir)
    (hready : ∀ j ∈ jobs, j.Ready config.scriptSettings w.directory)
    (hstems : (jobs.map Job.stem).Nodup)
    (hindex : jobs.Pairwise fun a b => ¬ (a.TakesIndex outDir ∧ b.TakesIndex outDir)) :
    (jobs.map (Job.home outDir)).Nodup ∧
      (∀ j ∈ jobs, j.Within → ∃ names, names ≠ [] ∧ j.home outDir = placeOf outDir ++ names) ∧
      (∀ w', generate configPath (jobs.map Job.path) out w = .ok () w' →
        (∀ j ∈ jobs, w'.directory.read (j.target outDir) = .ok j.text) ∧
          ∀ p, p ∉ jobs.map (Job.home outDir) →
            w'.directory.files.lookup p = w.directory.files.lookup p) ∧
      (Spared outDir jobs →
        (∀ fault w', generate configPath (jobs.map Job.path) out w = .error fault w' →
          fault.OfFiles) ∧
        ((∀ j ∈ jobs, j.Within ∧ ∃ e, w.directory.add (j.target outDir) j.text = .ok e) →
          ∃ w', generate configPath (jobs.map Job.path) out w = .ok () w')) := by
  subst hout
  have hhomes : (jobs.map (Job.home (config.outputTo out))).Nodup := by
    rw [List.Nodup, List.pairwise_map] at hstems ⊢
    exact (hstems.and hindex).imp fun h => Job.home_ne h.1 h.2
  refine ⟨hhomes, fun j _ hwithin => ?_, fun w' h => ?_, fun hspared => ⟨fun fault w' h => ?_, ?_⟩⟩
  · obtain ⟨names, -, hhome⟩ := Job.home_within (config.outputTo out) hwithin
    exact ⟨names ++ [j.file ++ ".ts"], by simp, by rw [hhome, List.append_assoc]⟩
  · rw [generate_eq hconfig] at h
    obtain ⟨_, w₁, hall, hsaid⟩ := Steps.bind_eq_ok_iff.mp h
    cases hsaid
    have hadd := addAll_of_generateAll (fun j hj => (hready j hj).stands)
      (fun j hj => ⟨(hready j hj).compiles, (hready j hj).renders⟩) hall
    exact ⟨fun j hj => read_of_addAll hadd hhomes hj, fun p hp => lookup_addAll hadd hp⟩
  · rw [generate_eq hconfig] at h
    rcases Steps.bind_eq_error_iff.mp h with h | ⟨_, _, -, h⟩
    · exact generateAll_fault hready hspared h
    · cases h
  · intro halone
    obtain ⟨e, he⟩ := addAll_succeeds halone
    obtain ⟨w', hw'⟩ := generateAll_of_addAll hready hspared he
    obtain ⟨w₁, hw₁, -⟩ := generate_of_all out hconfig hw'
    exact ⟨w₁, hw₁⟩

/-! ## Two documents -/

/-- The script of a document without structs and services. -/
def scriptOf (d : Document) : String :=
  match Script.file {} d ⟨[], []⟩ with
  | .ok text => text
  | .error _ => ""

/-- A directory with a constant and a second document. -/
def pairOf (second : String) : World := ⟨⟨[(["a"], limitText), (["b"], second)], []⟩, []⟩

def limitJob : Job := ⟨"a", withLimit (.int 7), ⟨[], []⟩, scriptOf (withLimit (.int 7))⟩

def secondJob (d : Document) : Job := ⟨"b", d, ⟨[], []⟩, scriptOf d⟩

theorem stem_limitJob : limitJob.stem = "a" := by
  rw [Job.stem, Path.fileStem, Path.fileName, Path.components,
    Path.splitOn_eq_singleton (by decide)]
  decide

theorem stem_secondJob (d : Document) : (secondJob d).stem = "b" := by
  have hpath : (secondJob d).path = "b" := rfl
  rw [Job.stem, hpath, Path.fileStem, Path.fileName, Path.components,
    Path.splitOn_eq_singleton (by decide)]
  decide

section Pairs

variable {second : String}

theorem loadConfig_pair : loadConfig (pairOf second).directory "thriftc.toml" = .ok {} := by
  have hplace : (pairOf second).directory.place "thriftc.toml" = .ok ["thriftc.toml"] :=
    Directory.place_of_parts rfl (by decide)
      (Path.splitOn_eq_singleton (by decide)) rfl
  rw [loadConfig, Directory.exists?, hplace]
  rfl

theorem load_first : load (pairOf second).directory "a" = .ok (withLimit (.int 7)) := by
  have hparts : "a".splitOn "/" = ["a"] := Path.splitOn_eq_singleton (by decide)
  obtain ⟨text, hread, htext⟩ := load_eq_ok_iff.mp load_limit
  obtain ⟨p, hp, -, hlookup⟩ := Directory.read_eq_ok_iff.mp hread
  have hlimit : limitWorld.directory.place "a" = .ok ["a"] :=
    Directory.place_of_parts rfl (by decide) hparts rfl
  cases hlimit.symm.trans hp
  cases hlookup
  have hplace : (pairOf second).directory.place "a" = .ok ["a"] :=
    Directory.place_of_parts rfl (by decide) hparts rfl
  exact load_eq_ok_iff.mpr ⟨_, Directory.read_eq_ok_iff.mpr ⟨_, hplace, rfl, rfl⟩, htext⟩

theorem load_second {d : Document} (h : Document.ofText second = .ok d) :
    load (pairOf second).directory "b" = .ok d := by
  have hplace : (pairOf second).directory.place "b" = .ok ["b"] :=
    Directory.place_of_parts rfl (by decide)
      (Path.splitOn_eq_singleton (by decide)) rfl
  exact load_eq_ok_iff.mpr ⟨_, Directory.read_eq_ok_iff.mpr ⟨_, hplace, rfl, rfl⟩, h⟩

theorem limitJob_ready : limitJob.Ready {} (pairOf second).directory := ⟨load_first, rfl, rfl⟩

theorem target_limitJob : limitJob.target "o" = "o/index.ts" := by decide

/-- The index file can be added where its folder can be made. -/
theorem add_index {d : Directory} (hmade : d.makeFoldersFrom [] ["o"] = .ok ⟨d.files, [["o"]]⟩)
    (text : String) : ∃ e, d.add "o/index.ts" text = .ok e ∧ e.folders = [["o"]] := by
  have habove : (Path.parent "o/index.ts").splitOn "/" = ["o"] := by
    rw [Path.splitOn_slash]
    decide
  have hparts : "o/index.ts".splitOn "/" = ["o", "index.ts"] := by
    rw [Path.splitOn_slash]
    decide
  have hfolders : d.makeFolders (Path.parent "o/index.ts") = .ok ⟨d.files, [["o"]]⟩ :=
    Directory.makeFolders_eq_ok_iff.mpr ⟨by decide, by rw [habove]; exact hmade⟩
  have hplace : Directory.place ⟨d.files, [["o"]]⟩ "o/index.ts" = .ok ["o", "index.ts"] :=
    Directory.place_of_parts rfl (by decide) hparts rfl
  exact ⟨_, Directory.add_succeeds hfolders hplace rfl text, rfl⟩

end Pairs

/-- The script of the first document is not written over the second one. -/
theorem spared_limitJob (d : Document) : Spared "o" [limitJob, secondJob d] := by
  refine List.pairwise_pair.mpr fun h => ?_
  have hparts : "b".splitOn "/" = ["b"] := Path.splitOn_eq_singleton (by decide)
  have hpath : placeOf (secondJob d).path = ["b"] := by
    have hb : (secondJob d).path = "b" := rfl
    rw [hb, placeOf, hparts]
    decide
  have hlast := congrArg List.getLast? h
  rw [hpath, Job.home_eq, List.getLast?_concat] at hlast
  exact absurd hlast (by decide)

/-- A document whose scripts go to a folder of their own. -/
def users : Document := ⟨[.namespaceLine ⟨"js", "com.acme.users"⟩]⟩

def usersText : String := "[[[\"NamespaceDefinition\",\"js\",\"com.acme.users\"]]]"

theorem ofText_users : Document.ofText usersText = .ok users := by
  have hchars : usersText.toList = ['[', '[', '[', '"', 'N', 'a', 'm', 'e', 's', 'p', 'a', 'c',
      'e', 'D', 'e', 'f', 'i', 'n', 'i', 't', 'i', 'o', 'n', '"', ',', '"', 'j', 's', '"', ',',
      '"', 'c', 'o', 'm', '.', 'a', 'c', 'm', 'e', '.', 'u', 's', 'e', 'r', 's', '"',
      ']', ']', ']'] := by decide
  have htree : Document.readTree usersText.toList = .ok (.list [.list [.list [
      .string "NamespaceDefinition", .string "js", .string "com.acme.users"]]], []) := by
    rw [hchars]
    rfl
  rw [Document.ofText, htree]
  rfl

theorem add_users (text : String) :
    ∃ e, (pairOf usersText).directory.add "o/users/b.ts" text = .ok e := by
  have habove : (Path.parent "o/users/b.ts").splitOn "/" = ["o", "users"] := by
    rw [Path.splitOn_slash]
    decide
  have hparts : "o/users/b.ts".splitOn "/" = ["o", "users", "b.ts"] := by
    rw [Path.splitOn_slash]
    decide
  let made : Directory := ⟨(pairOf usersText).directory.files, [["o", "users"], ["o"]]⟩
  have hmade : (pairOf usersText).directory.makeFolders (Path.parent "o/users/b.ts") = .ok made :=
    Directory.makeFolders_eq_ok_iff.mpr ⟨by decide, by rw [habove]; rfl⟩
  have hplace : made.place "o/users/b.ts" = .ok ["o", "users", "b.ts"] :=
    Directory.place_of_parts rfl (by decide) hparts rfl
  exact ⟨_, Directory.add_succeeds hmade hplace rfl text⟩

/-- A constant and a document with a namespace are both found behind a run. -/
theorem generate_keeps_outputs_users :
    [limitJob, secondJob users].map (Job.target "o") = ["o/index.ts", "o/users/b.ts"] ∧
      ∃ w', generate "thriftc.toml" ["a", "b"] (some "o") (pairOf usersText) = .ok () w' ∧
        w'.directory.read "o/index.ts" = .ok (scriptOf (withLimit (.int 7))) ∧
        w'.directory.read "o/users/b.ts" = .ok (scriptOf users) := by
  have hlimit : limitJob.target "o" = "o/index.ts" := target_limitJob
  have husers : (secondJob users).target "o" = "o/users/b.ts" := by
    rw [Job.target, stem_secondJob]
    decide
  have hready : ∀ j ∈ [limitJob, secondJob users], j.Ready {} (pairOf usersText).directory :=
    List.forall_mem_cons.mpr ⟨limitJob_ready,
      List.forall_mem_singleton.mpr ⟨load_second ofText_users, rfl, rfl⟩⟩
  have hstems : ([limitJob, secondJob users].map Job.stem).Nodup := by
    rw [List.map_cons, List.map_singleton, stem_limitJob, stem_secondJob]
    decide
  have hindex : [limitJob, secondJob users].Pairwise
      fun a b => ¬ (a.TakesIndex "o" ∧ b.TakesIndex "o") := by
    refine List.pairwise_pair.mpr fun h => ?_
    have hfile : (secondJob users).file = "b" := stem_secondJob users
    rw [h.2.1] at hfile
    exact absurd hfile (by decide)
  have halone : ∀ j ∈ [limitJob, secondJob users], j.Within ∧
      ∃ e, (pairOf usersText).directory.add (j.target "o") j.text = .ok e := by
    refine List.forall_mem_cons.mpr ⟨⟨rfl, ?_⟩, List.forall_mem_singleton.mpr ⟨rfl, ?_⟩⟩
    · obtain ⟨e, he, -⟩ := add_index (d := (pairOf usersText).directory) rfl limitJob.text
      exact ⟨e, hlimit ▸ he⟩
    · rw [husers]
      exact add_users _
  obtain ⟨-, -, hfound, hall⟩ := generate_keeps_outputs (some "o") loadConfig_pair rfl
    hready hstems hindex
  obtain ⟨w', hw'⟩ := (hall (spared_limitJob users)).2 halone
  obtain ⟨hread, -⟩ := hfound w' hw'
  refine ⟨by rw [List.map_cons, List.map_singleton, hlimit, husers], w', hw', ?_, ?_⟩
  · exact hlimit ▸ hread limitJob (List.mem_cons_self ..)
  · exact husers ▸ hread (secondJob users) (List.mem_cons_of_mem _ (List.mem_cons_self ..))

/-- The last segment of this namespace starts at the root. -/
def rooted : Document := ⟨[.namespaceLine ⟨"js", "com./srv"⟩]⟩

theorem home_rooted : (secondJob rooted).home "o" = ["/", "srv", "b.ts"] := by
  have hfile : (secondJob rooted).file = "b" := stem_secondJob rooted
  have hpath : Path.join "o" (secondJob rooted).folder = "/srv" := by decide
  rw [Job.home_eq, hfile, hpath, placeOf, Path.splitOn_slash]
  decide

/-- Two documents without a namespace both take the index file. The run succeeds, and what is found
in the file is the script of the second one. A script whose namespace starts at the root is not
below the output directory. -/
theorem outputs_lost :
    limitJob.stem ≠ (secondJob ⟨[]⟩).stem ∧
      (∀ j ∈ [limitJob, secondJob ⟨[]⟩], j.Ready {} (pairOf "[]").directory) ∧
      ∃ w', generate "thriftc.toml" ["a", "b"] (some "o") (pairOf "[]") = .ok () w' ∧
        [limitJob, secondJob ⟨[]⟩].map (Job.target "o") = ["o/index.ts", "o/index.ts"] ∧
        w'.directory.read "o/index.ts" = .ok (scriptOf ⟨[]⟩) ∧
        scriptOf ⟨[]⟩ ≠ scriptOf (withLimit (.int 7)) ∧
        (secondJob rooted).home "o" = ["/", "srv", "b.ts"] ∧ placeOf "o" = ["o"] := by
  have hlimit : limitJob.target "o" = "o/index.ts" := target_limitJob
  have hsecond : (secondJob ⟨[]⟩).target "o" = "o/index.ts" := by decide
  have hready : ∀ j ∈ [limitJob, secondJob ⟨[]⟩], j.Ready {} (pairOf "[]").directory :=
    List.forall_mem_cons.mpr ⟨limitJob_ready,
      List.forall_mem_singleton.mpr ⟨load_second rfl, rfl, rfl⟩⟩
  obtain ⟨e, he, hfolders⟩ := add_index (d := (pairOf "[]").directory) rfl limitJob.text
  obtain ⟨e', he', -⟩ := add_index (d := e) (by cases e; cases hfolders; rfl) (scriptOf ⟨[]⟩)
  have hall : addAll "o" (pairOf "[]").directory [limitJob, secondJob ⟨[]⟩] = .ok e' :=
    addAll_cons_eq_ok_iff.mpr ⟨e, hlimit ▸ he, addAll_cons_eq_ok_iff.mpr ⟨e', hsecond ▸ he', rfl⟩⟩
  obtain ⟨w, hw⟩ := generateAll_of_addAll hready (spared_limitJob _) hall
  have hsame := addAll_of_generateAll (fun j hj => (hready j hj).stands)
    (fun j hj => ⟨(hready j hj).compiles, (hready j hj).renders⟩) hw
  obtain ⟨w', hw', hdirectory⟩ := generate_of_all (some "o") loadConfig_pair hw
  have hfound : w'.directory.read "o/index.ts" = .ok (scriptOf ⟨[]⟩) := by
    rw [hdirectory, ← Except.ok.inj (hall.symm.trans hsame)]
    exact (Directory.added_of_add he').read_self
  have hout : placeOf "o" = ["o"] := by
    rw [placeOf, Path.splitOn_slash]
    decide
  refine ⟨?_, hready, w', hw', ?_, hfound, by decide, home_rooted, hout⟩
  · rw [stem_limitJob, stem_secondJob]
    decide
  · rw [List.map_cons, List.map_singleton, hlimit, hsecond]

end Cli

end Thrift
