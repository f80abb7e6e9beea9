-- What a check leaves open. A check compiles a document; to write its script the constants are
-- lowered as well, which no codec needs. A document that passes the check is written unless a
-- constant does not fit its type, and then only files stand in the way.
import Thrift.Cli.Run
import Thrift.Proofs.Assembly

namespace Thrift

/-! ## Scripts -/

/-- Every constant of the document has a value of its declared type. -/
def Document.ConstantsFit (d : Document) : Prop :=
  ∀ t, SymbolTable.ofDocument d = .ok t → ∀ k ∈ d.constants, ∃ v, k.value.lower t k.name k.type = .ok v

theorem Document.mem_constants {d : Document} {k : Constant} :
    k ∈ d.constants ↔ .constant k ∈ d.body := by
  unfold constants
  rw [List.mem_filterMap]
  constructor
  · rintro ⟨st, hst, hk⟩
    cases st <;> cases hk
    exact hst
  · intro hst
    exact ⟨_, hst, rfl⟩

namespace Script

theorem statementLines_succeeds_iff {t : SymbolTable} {st : Statement} :
    (∃ pieces, statementLines t st = .ok pieces) ↔
      ∀ k, st = .constant k → ∃ v, k.value.lower t k.name k.type = .ok v := by
  cases st with
  | constant k =>
    simp only [statementLines, constantLine, Steps.except_bind_eq_ok_iff]
    constructor
    · rintro ⟨_, _, ⟨v, hv, -⟩, -⟩ _ ⟨⟩
      exact ⟨v, hv⟩
    · intro h
      obtain ⟨v, hv⟩ := h k rfl
      exact ⟨_, _, ⟨v, hv, rfl⟩, rfl⟩
  | _ => simp [statementLines]

/-- A compiled document has a script when its constants fit, whatever the settings are. -/
theorem file_succeeds_iff {d : Document} {c : Compiled} (hc : d.compile = .ok c)
    (settings : Settings) : (∃ text, file settings d c = .ok text) ↔ d.ConstantsFit := by
  obtain ⟨t, ht, -⟩ := Document.compile_eq_ok_iff.mp hc
  have hfile : (∃ text, file settings d c = .ok text) ↔
      ∃ lines, d.body.mapM (statementLines t) = .ok lines := by
    unfold file bodyLines
    rw [ht]
    simp only [Steps.except_bind_eq_ok_iff]
    constructor
    · rintro ⟨_, _, ⟨lines, hlines, -⟩, -⟩
      exact ⟨lines, hlines⟩
    · rintro ⟨lines, hlines⟩
      exact ⟨_, _, ⟨lines, hlines, rfl⟩, rfl⟩
  rw [hfile, Steps.mapM_succeeds_iff]
  simp only [statementLines_succeeds_iff]
  constructor
  · intro h t₀ ht₀ k hk
    cases ht.symm.trans ht₀
    exact h (.constant k) (Document.mem_constants.mp hk) k rfl
  · rintro h _ hst k rfl
    exact h t ht k (Document.mem_constants.mpr hst)

end Script

/-! ## Commands -/

namespace Cli

/-- What is left to do once a document is compiled. -/
def render (settings : Script.Settings) (outDir path : String) (d : Document) (c : Compiled) :
    Running Unit := do
  let target := (Namespace.ofDocument outDir d ((Path.fileStem path).getD "index")).path
  match Script.file settings d c with
  | .error cause => throw (.notRendered path cause)
  | .ok text => writeFile target text
  say s!"  ✓ {target} {tally c}"

/-- The state when a document is about to be compiled. -/
def World.announced (w : World) (path : String) : World :=
  { w with said := w.said ++ [s!"→ Compiling {path}..."] }

theorem generateOne_eq {w : World} {path : String} {d : Document} {c : Compiled}
    (hd : load w.directory path = .ok d) (hc : d.compile = .ok c) (settings : Script.Settings)
    (outDir : String) :
    generateOne settings outDir path w = render settings outDir path d c (w.announced path) := by
  have hload : load (w.announced path).directory path = .ok d := hd
  have hcompile : compileDocument path d = .ok c := by
    rw [compileDocument, hc]
    rfl
  unfold generateOne
  rw [Steps.bind_ok (t := w.announced path) (by rfl), Steps.bind_ok (by rfl), hload,
    Steps.bind_ok (by rfl), hcompile, Steps.bind_ok (by rfl)]
  rfl

/-- The fault tells of a file or a folder that could not be made. -/
def RunFault.OfFiles : RunFault → Prop
  | folderNotMade _ _ => True
  | fileNotWritten _ _ => True
  | _ => False

theorem writeFile_fault {path text : String} {w w' : World} {fault : RunFault}
    (h : writeFile path text w = .error fault w') : fault.OfFiles := by
  rw [writeFile, Steps.bind_ok (t := w) (by rfl)] at h
  rcases hfolders : w.directory.makeFolders (Path.parent path) with cause | made
  · rw [hfolders] at h
    cases h
    trivial
  · rw [hfolders] at h
    dsimp only at h
    rcases hwrite : made.write path text with cause | written
    · rw [hwrite] at h
      cases h
      trivial
    · rw [hwrite] at h
      cases h

theorem render_fault {settings : Script.Settings} {outDir path : String} {d : Document}
    {c : Compiled} {text : String} (hfile : Script.file settings d c = .ok text) {w w' : World}
    {fault : RunFault} (h : render settings outDir path d c w = .error fault w') :
    fault.OfFiles := by
  unfold render at h
  rw [hfile] at h
  rcases Steps.bind_eq_error_iff.mp h with h | ⟨_, _, -, h⟩
  · exact writeFile_fault h
  · cases h

theorem checkOne_eq_ok_iff {dir : Directory} {path : String} {c : Compiled} :
    checkOne dir path = .ok c ↔ ∃ d, load dir path = .ok d ∧ d.compile = .ok c := by
  unfold checkOne
  rcases load dir path with fault | d
  · simp [Except.mapError, bind, Except.bind]
  · rcases hc : d.compile with cause | c' <;> simp [Except.mapError, bind, Except.bind, hc]

/-- What is generated was compiled. -/
theorem checkOne_of_generateOne {settings : Script.Settings} {outDir path : String} {w w' : World}
    (h : generateOne settings outDir path w = .ok () w') :
    ∃ c, checkOne w.directory path = .ok c := by
  unfold generateOne at h
  rw [Steps.bind_ok (t := w.announced path) (by rfl), Steps.bind_ok (by rfl)] at h
  obtain ⟨d, w₁, hd, h⟩ := Steps.bind_eq_ok_iff.mp h
  obtain ⟨c, w₂, hc, -⟩ := Steps.bind_eq_ok_iff.mp h
  refine ⟨c, checkOne_eq_ok_iff.mpr ⟨d, ?_, ?_⟩⟩
  · have hsame : load (w.announced path).directory path = load w.directory path := rfl
    rw [hsame] at hd
    rcases hload : load w.directory path with fault | d'
    · rw [hload] at hd
      cases hd
    · rw [hload] at hd
      cases hd
      rfl
  · unfold compileDocument at hc
    rcases hcompile : d.compile with cause | c'
    · rw [hcompile] at hc
      cases hc
    · rw [hcompile] at hc
      cases hc
      rfl

/-- A compiled document has a script for all settings or for none, and has one when its constants
fit. Whatever is generated passes the check; and of a document that passes it, whose constants
fit, a script is made unless files are in the way. -/
theorem generate_of_check :
    (∀ (d : Document) (c : Compiled), d.compile = .ok c → ∀ settings,
      (∃ text, Script.file settings d c = .ok text) ↔ d.ConstantsFit) ∧
      ∀ (w : World) (path : String) (settings : Script.Settings) (outDir : String),
        (∀ w', generateOne settings outDir path w = .ok () w' →
          ∃ c, checkOne w.directory path = .ok c) ∧
          ∀ d c, load w.directory path = .ok d → checkOne w.directory path = .ok c →
            d.ConstantsFit → ∀ fault w', generateOne settings outDir path w = .error fault w' →
              fault.OfFiles := by
  refine ⟨fun d c hc => Script.file_succeeds_iff hc, fun w path settings outDir => ?_⟩
  refine ⟨fun w' => checkOne_of_generateOne, fun d c hload hcheck hfit fault w' hfault => ?_⟩
  obtain ⟨d', hload', hc⟩ := checkOne_eq_ok_iff.mp hcheck
  cases hload.symm.trans hload'
  obtain ⟨text, hfile⟩ := (Script.file_succeeds_iff hc settings).mpr hfit
  rw [generateOne_eq hload hc] at hfault
  exact render_fault hfile hfault

/-! ## Two constants -/

/-- A document with one constant. -/
def withLimit (value : Literal) : Document := ⟨[.constant ⟨"LIMIT", .byte, value⟩]⟩

/-- A constant that does not fit its type passes the check, but no script can be made of it. -/
theorem unfit_limit :
    (withLimit (.int 300)).compile = .ok ⟨[], []⟩ ∧
      Script.file {} (withLimit (.int 300)) ⟨[], []⟩ =
        .error (.invalidDefault "LIMIT" (.outOfRange 300 "a byte")) := ⟨rfl, rfl⟩

/-- A constant that fits, as the text of a document. -/
def limitText : String := "[[[\"ConstDefinition\",\"LIMIT\",[\"byte\"],[\"int\",7]]]]"

/-- A directory with this document and nothing else. -/
def limitWorld : World := ⟨⟨[(["a"], limitText)], []⟩, []⟩

theorem load_limit : load limitWorld.directory "a" = .ok (withLimit (.int 7)) := by
  have hparts : "a".splitOn "/" = ["a"] := by
    rw [String.splitOn, if_neg (by decide), String.splitOnAux, if_neg (by decide),
      if_neg (by decide), String.splitOnAux, if_pos (by decide)]
    decide +kernel
  have hpath : Directory.checkPath "a" = .ok () := by
    rw [Directory.checkPath, if_neg (by decide +kernel), if_neg (by decide +kernel)]
  have hstart : Directory.start "a" = [] := by decide +kernel
  have hstep : limitWorld.directory.step [] "a" = .ok ["a"] := by
    rw [Directory.step, if_pos (by decide +kernel), Directory.checkName,
      if_neg (by decide +kernel)]
    rfl
  have hplace : limitWorld.directory.place "a" = .ok ["a"] := by
    rw [Directory.place, hpath, hparts, hstart]
    simp only [List.foldlM_cons, List.foldlM_nil, hstep]
    rfl
  have hread : limitWorld.directory.read "a" = .ok limitText := by
    rw [Directory.read, hplace]
    rfl
  have hchars : limitText.toList = ['[', '[', '[', '"', 'C', 'o', 'n', 's', 't', 'D', 'e', 'f',
      'i', 'n', 'i', 't', 'i', 'o', 'n', '"', ',', '"', 'L', 'I', 'M', 'I', 'T', '"', ',',
      '[', '"', 'b', 'y', 't', 'e', '"', ']', ',', '[', '"', 'i', 'n', 't', '"', ',', '7',
      ']', ']', ']', ']'] := by decide +kernel
  have htree : Document.readTree limitText.toList = .ok (.list [.list [.list [
      .string "ConstDefinition", .string "LIMIT", .list [.string "byte"],
      .list [.string "int", .int 7]]]], []) := by
    rw [hchars]
    rfl
  rw [load, hread]
  dsimp only
  rw [Document.ofText, htree]
  rfl

theorem generate_of_check_limit :
    checkOne limitWorld.directory "a" = .ok ⟨[], []⟩ ∧ (withLimit (.int 7)).ConstantsFit ∧
      (∃ text, Script.file {} (withLimit (.int 7)) ⟨[], []⟩ = .ok text) ∧
      ∀ fault w', generateOne {} "out" "a" limitWorld = .error fault w' → fault.OfFiles := by
  have hcheck : checkOne limitWorld.directory "a" = .ok ⟨[], []⟩ :=
    checkOne_eq_ok_iff.mpr ⟨_, load_limit, rfl⟩
  have hfit : (withLimit (.int 7)).ConstantsFit := by
    intro t ht k hk
    cases ht
    cases List.mem_singleton.mp hk
    exact ⟨.byte 7, rfl⟩
  obtain ⟨hfile, hgenerate⟩ := generate_of_check
  exact ⟨hcheck, hfit, (hfile _ ⟨[], []⟩ rfl {}).mpr hfit,
    (hgenerate limitWorld "a" {} "out").2 _ _ load_limit hcheck hfit⟩

end Cli

end Thrift
