-- Where paths lead. The parts of a path are taken one after the other, so the place of a joined
-- path goes on from the place of its first half, and the way to a file passes the places of the
-- folders above it.
import Mathlib.Data.String.Basic
import Thrift.Cli.Directory
import Thrift.Proofs.Steps

namespace Thrift

/-! ## Parts of a path -/

namespace Path

open String in
theorem splitOnAux_slash (l m r : List Char) (acc : List String) :
    splitOnAux (ofList (l ++ m ++ r)) "/" ⟨utf8Len l⟩ ⟨utf8Len l + utf8Len m⟩ 0 acc =
      acc.reverse ++ (List.splitOnPPrepend (· == '/') r m.reverse).map ofList := by
  have hget : Pos.Raw.get "/" 0 = '/' := by decide
  have hnext : Pos.Raw.next "/" 0 = ⟨1⟩ := by decide
  have hend : Pos.Raw.atEnd "/" ⟨1⟩ = true := by decide
  rw [splitOnAux.eq_1]
  simp only [List.append_assoc, atEnd_iff, rawEndPos_ofList, utf8Len_append, Pos.Raw.mk_le_mk,
    Nat.add_le_add_iff_left, (by omega : utf8Len m + utf8Len r ≤ utf8Len m ↔ utf8Len r = 0),
    utf8Len_eq_zero, hget, hnext, hend]
  split
  · subst r
    simpa using extract_of_valid l m []
  · obtain ⟨c, r, rfl⟩ := r.exists_cons_of_ne_nil ‹_›
    have hg := get_of_valid (l ++ m) (c :: r)
    have hn := next_of_valid (l ++ m) c r
    have he := extract_of_valid l m (c :: r)
    simp only [List.append_assoc, utf8Len_append, List.headD_cons] at hg hn he
    simp only [hg, hn]
    by_cases hc : c = '/'
    · subst hc
      have hback : Pos.Raw.unoffsetBy ⟨utf8Len l + utf8Len m + '/'.utf8Size⟩ ⟨1⟩ =
          ⟨utf8Len l + utf8Len m⟩ := rfl
      simp only [beq_self_eq_true, if_true, hback, he]
      simpa [List.splitOnPPrepend_cons_eq_if, Nat.add_assoc] using
        splitOnAux_slash (l ++ m ++ ['/']) [] r (ofList m :: acc)
    · have hback : Pos.Raw.unoffsetBy ⟨utf8Len l + utf8Len m⟩ 0 = ⟨utf8Len l + utf8Len m⟩ := rfl
      simp only [beq_iff_eq, hc, if_false, hback, hn]
      simpa [List.splitOnPPrepend_cons_eq_if, hc, Nat.add_assoc] using
        splitOnAux_slash l (m ++ [c]) r acc
termination_by r.length

theorem splitOn_slash (path : String) :
    path.splitOn "/" = (path.toList.splitOnP (· == '/')).map String.ofList := by
  have h := splitOnAux_slash [] [] path.toList []
  rw [String.splitOn, if_neg (by decide)]
  simpa using h

theorem splitOn_append_slash (a b : List Char) :
    (String.ofList (a ++ '/' :: b)).splitOn "/" =
      (String.ofList a).splitOn "/" ++ (String.ofList b).splitOn "/" := by
  simp only [splitOn_slash, String.toList_ofList]
  rw [List.splitOnP_append_cons a b (by decide), List.map_append]

/-- A text without slashes is one part. -/
theorem splitOn_eq_singleton {part : String} (h : '/' ∉ part.toList) :
    part.splitOn "/" = [part] := by
  rw [splitOn_slash, List.splitOnP_eq_singleton, List.map_singleton, String.ofList_toList]
  intro c hc
  exact beq_eq_false_iff_ne.mpr fun heq => h (heq ▸ hc)

theorem splitOn_blank : "".splitOn "/" = [""] := splitOn_eq_singleton List.not_mem_nil

theorem mem_of_mem_splitOnP {cs piece : List Char} {c : Char}
    (hp : piece ∈ cs.splitOnP (· == '/')) (hc : c ∈ piece) : c ∈ cs ∧ c ≠ '/' := by
  induction cs generalizing piece with
  | nil =>
    rw [List.splitOnP_nil, List.mem_singleton] at hp
    rw [hp] at hc
    exact absurd hc List.not_mem_nil
  | cons x cs ih =>
    rw [List.splitOnP_cons_eq_if_modifyHead] at hp
    split at hp
    · rcases List.mem_cons.mp hp with rfl | hp
      · exact absurd hc List.not_mem_nil
      · exact (ih hp hc).imp_left (List.mem_cons_of_mem _)
    · rename_i hx
      obtain ⟨first, rest, hsplit⟩ :=
        List.exists_cons_of_ne_nil (List.splitOnP_ne_nil (· == '/') cs)
      rw [hsplit, List.modifyHead_cons] at hp
      rcases List.mem_cons.mp hp with rfl | hp
      · rcases List.mem_cons.mp hc with rfl | hc
        · exact ⟨List.mem_cons_self .., fun heq => hx (beq_iff_eq.mpr heq)⟩
        · exact (ih (hsplit ▸ List.mem_cons_self ..) hc).imp_left (List.mem_cons_of_mem _)
      · exact (ih (hsplit ▸ List.mem_cons_of_mem _ hp) hc).imp_left (List.mem_cons_of_mem _)

theorem mem_of_mem_splitOn {path part : String} {c : Char} (hp : part ∈ path.splitOn "/")
    (hc : c ∈ part.toList) : c ∈ path.toList ∧ c ≠ '/' := by
  rw [splitOn_slash] at hp
  obtain ⟨piece, hpiece, rfl⟩ := List.mem_map.mp hp
  rw [String.toList_ofList] at hc
  exact mem_of_mem_splitOnP hpiece hc

/-- A path that goes on from another one has its parts behind those of the first, whose last part
is left out where it is empty. -/
theorem splitOn_join {a b : String} (hb : isAbsolute b = false) :
    ∃ front, (join a b).splitOn "/" = front ++ b.splitOn "/" ∧
      (a.splitOn "/" = front ∨ a.splitOn "/" = front ++ [""]) := by
  unfold join
  rw [if_neg (Bool.eq_false_iff.mp hb)]
  split
  · rename_i hend
    rcases Bool.or_eq_true_iff.mp hend with hempty | hslash
    · have hnil : a = "" := String.isEmpty_iff.mp hempty
      subst hnil
      exact ⟨[], by rw [String.empty_append, List.nil_append], .inr splitOn_blank⟩
    · obtain ⟨cs, hcs⟩ := List.getLast?_eq_some_iff.mp (beq_iff_eq.mp hslash)
      have ha : a = String.ofList (cs ++ '/' :: []) := by rw [← hcs, String.ofList_toList]
      have hab : a ++ b = String.ofList (cs ++ '/' :: b.toList) := by
        rw [ha, ← String.toList_inj]
        simp
      refine ⟨(String.ofList cs).splitOn "/", ?_, .inr ?_⟩
      · rw [hab, splitOn_append_slash, String.ofList_toList]
      · rw [ha, splitOn_append_slash, String.ofList_nil, splitOn_blank]
  · have hab : a ++ "/" ++ b = String.ofList (a.toList ++ '/' :: b.toList) := by
      rw [← String.toList_inj]
      simp
    refine ⟨a.splitOn "/", ?_, .inl rfl⟩
    rw [hab, splitOn_append_slash, String.ofList_toList, String.ofList_toList]

end Path

namespace Cli.Directory

open Thrift.Path (isAbsolute join splitOn_join trimmed)

/-! ## Ways -/

/-- The place that a path leads to, whatever is there. -/
def placeOf (path : String) : Place := (path.splitOn "/").foldl next (start path)

/-- The places that parts lead through, one behind each part. -/
def way (p : Place) : List String → List Place
  | [] => []
  | part :: parts => next p part :: way (next p part) parts

/-- The places that a path leads through, from its start to its end. -/
def wayTo (path : String) : List Place := start path :: way (start path) (path.splitOn "/")

@[simp] theorem next_blank (p : Place) : next p "" = p := rfl

@[simp] theorem next_dot (p : Place) : next p "." = p := rfl

theorem way_append (p : Place) (a b : List String) :
    way p (a ++ b) = way p a ++ way (a.foldl next p) b := by
  induction a generalizing p with
  | nil => rfl
  | cons part a ih => rw [List.cons_append, way, ih, way, List.foldl_cons, List.cons_append]

theorem foldl_next_mem_way (p : Place) (parts : List String) :
    parts.foldl next p ∈ p :: way p parts := by
  induction parts generalizing p with
  | nil => exact List.mem_singleton.mpr rfl
  | cons part parts ih => exact List.mem_cons_of_mem _ (ih (next p part))

/-- A part that stays where it is adds nothing to the way. -/
theorem mem_way_stay {p q : Place} {a : List String} {part : String}
    (hpart : ∀ p, next p part = p) : q ∈ p :: way p (a ++ [part]) ↔ q ∈ p :: way p a := by
  have hlast : way (a.foldl next p) [part] = [a.foldl next p] := by rw [way, hpart, way]
  rw [way_append, hlast, ← List.cons_append, List.mem_append, List.mem_singleton]
  constructor
  · rintro (h | rfl)
    · exact h
    · exact foldl_next_mem_way p a
  · exact .inl

theorem start_join {a b : String} (hb : isAbsolute b = false) : start (join a b) = start a := by
  have habs : isAbsolute (join a b) = isAbsolute a := by
    unfold join
    rw [if_neg (Bool.eq_false_iff.mp hb)]
    rcases hcs : a.toList with _ | ⟨c, cs⟩
    · have hnil : a = "" := String.toList_eq_nil_iff.mp hcs
      subst hnil
      exact hb
    · split <;> simp [isAbsolute, hcs]
  unfold start
  rw [habs]

theorem placeOf_join {a b : String} (hb : isAbsolute b = false) :
    placeOf (join a b) = (b.splitOn "/").foldl next (placeOf a) := by
  obtain ⟨front, hjoin, ha | ha⟩ := splitOn_join (a := a) hb
  · rw [placeOf, placeOf, hjoin, start_join hb, ha, List.foldl_append]
  · rw [placeOf, placeOf, hjoin, start_join hb, ha, List.foldl_append, List.foldl_append,
      List.foldl_cons, List.foldl_nil, next_blank]

/-- The way to a joined path goes to its first half and on from there. -/
theorem mem_wayTo_join {a b : String} (hb : isAbsolute b = false) {q : Place} :
    q ∈ wayTo (join a b) ↔ q ∈ wayTo a ∨ q ∈ way (placeOf a) (b.splitOn "/") := by
  obtain ⟨front, hjoin, ha | ha⟩ := splitOn_join (a := a) hb
  · rw [wayTo, wayTo, placeOf, hjoin, start_join hb, ha, way_append, ← List.cons_append,
      List.mem_append]
  · have hplace : placeOf a = front.foldl next (start a) := by
      rw [placeOf, ha, List.foldl_append, List.foldl_cons, List.foldl_nil, next_blank]
    rw [wayTo, wayTo, hplace, hjoin, start_join hb, ha, way_append, ← List.cons_append,
      List.mem_append, mem_way_stay next_blank]

/-! ## Folders above a file -/

theorem start_append {cs : List Char} (h : cs ≠ []) (more : List Char) :
    start (String.ofList (cs ++ more)) = start (String.ofList cs) := by
  obtain ⟨c, cs, rfl⟩ := List.exists_cons_of_ne_nil h
  simp [start, isAbsolute]

/-- A slash at the end of a path leads nowhere else. -/
theorem mem_wayTo_slash {cs : List Char} (h : cs ≠ []) {q : Place} :
    q ∈ wayTo (String.ofList (cs ++ ['/'])) ↔ q ∈ wayTo (String.ofList cs) := by
  rw [wayTo, wayTo, start_append h, Path.splitOn_append_slash, String.ofList_nil,
    Path.splitOn_blank, mem_way_stay next_blank]

/-- Neither does a dot behind a slash. -/
theorem mem_wayTo_dot (cs : List Char) {q : Place} :
    q ∈ wayTo (String.ofList (cs ++ ['/', '.'])) ↔ q ∈ wayTo (String.ofList (cs ++ ['/'])) := by
  have hdot : (String.ofList ['.']).splitOn "/" = ["."] := Path.splitOn_eq_singleton (by decide)
  have hstart : start (String.ofList (cs ++ ['/', '.'])) = start (String.ofList (cs ++ ['/'])) := by
    have hne : cs ++ ['/'] ≠ [] := by simp
    rw [← start_append hne ['.'], List.append_assoc]
    rfl
  rw [wayTo, wayTo, hstart, Path.splitOn_append_slash, Path.splitOn_append_slash, hdot,
    String.ofList_nil, Path.splitOn_blank, mem_way_stay next_dot, mem_way_stay next_blank]

theorem mem_wayTo_trimmed (cs : List Char) {q : Place} :
    q ∈ wayTo (String.ofList (trimmed cs).reverse) ↔ q ∈ wayTo (String.ofList cs.reverse) := by
  fun_induction trimmed cs with
  | case1 cs h => rw [List.isEmpty_iff.mp h]
  | case2 cs h ih =>
    rw [ih, List.reverse_cons, mem_wayTo_slash (by simpa using h)]
  | case3 cs h ih =>
    obtain ⟨cs, rfl⟩ := List.head?_eq_some_iff.mp h
    rw [ih, List.reverse_cons, List.reverse_cons, List.reverse_cons, List.append_assoc]
    exact (mem_wayTo_dot cs.reverse).symm
  | case4 => rfl
  | case5 => rfl

/-- The way to the folder of a file is the way to the path that the file's name is joined to. -/
theorem mem_wayTo_parent {a name : String} (hname : '/' ∉ name.toList) {q : Place} :
    q ∈ wayTo (Path.parent (join a name)) ↔ q ∈ wayTo a := by
  have hb : isAbsolute name = false := by
    rw [isAbsolute, beq_eq_false_iff_ne]
    exact fun hhead => hname (List.mem_of_mem_head? hhead)
  have hparent : ∀ front : List Char, (front = [] ∨ ∃ cs, front = cs ++ ['/']) →
      Path.parent (String.ofList (front ++ name.toList)) =
        String.ofList (trimmed front.reverse).reverse := by
    intro front hfront
    rw [Path.parent, String.toList_ofList, List.reverse_append, List.dropWhile_append_of_pos]
    · rcases hfront with rfl | ⟨cs, rfl⟩
      · rfl
      · rw [List.reverse_append]
        rfl
    · intro c hc
      exact bne_iff_ne.mpr fun heq => hname (heq ▸ List.mem_reverse.mp hc)
  unfold join
  rw [if_neg (Bool.eq_false_iff.mp hb)]
  split
  · rename_i hend
    have hfront : a.toList = [] ∨ ∃ cs, a.toList = cs ++ ['/'] := by
      rcases Bool.or_eq_true_iff.mp hend with hempty | hslash
      · exact .inl (String.toList_eq_nil_iff.mpr (String.isEmpty_iff.mp hempty))
      · exact .inr (List.getLast?_eq_some_iff.mp (beq_iff_eq.mp hslash))
    have hcat : a ++ name = String.ofList (a.toList ++ name.toList) := by
      rw [← String.toList_inj]
      simp
    rw [hcat, hparent _ hfront, mem_wayTo_trimmed, List.reverse_reverse, String.ofList_toList]
  · rename_i hend
    have hne : a.toList ≠ [] := by
      intro hnil
      rw [String.toList_eq_nil_iff.mp hnil] at hend
      exact hend rfl
    have hcat : a ++ "/" ++ name = String.ofList (a.toList ++ ['/'] ++ name.toList) := by
      rw [← String.toList_inj]
      simp
    rw [hcat, hparent _ (.inr ⟨_, rfl⟩), mem_wayTo_trimmed, List.reverse_reverse,
      mem_wayTo_slash hne, String.ofList_toList]

/-! ## Files that are added -/

variable {d d' e : Directory} {p q : Place} {parts : List String} {path text : String}

theorem step_eq_ok {part : String} (h : d.step p part = .ok q) :
    q = next p part ∧ d.isFolder p = true ∧ checkName part = .ok () := by
  unfold step at h
  split at h
  · rename_i hfolder
    rcases hname : checkName part with cause | ⟨⟩
    · rw [hname] at h
      cases h
    · rw [hname] at h
      cases h
      exact ⟨rfl, hfolder, rfl⟩
  · split at h <;> cases h

theorem foldlM_step_eq (h : parts.foldlM d.step p = .ok q) : q = parts.foldl next p := by
  induction parts generalizing p with
  | nil =>
    cases h
    rfl
  | cons part parts ih =>
    rw [List.foldlM_cons] at h
    obtain ⟨p', hp', h⟩ := Steps.except_bind_eq_ok_iff.mp h
    obtain ⟨rfl, -, -⟩ := step_eq_ok hp'
    exact ih h

/-- More folders are in nobody's way. -/
theorem foldlM_step_mono (hfolders : ∀ q, d.isFolder q = true → d'.isFolder q = true)
    (h : parts.foldlM d.step p = .ok q) : parts.foldlM d'.step p = .ok q := by
  induction parts generalizing p with
  | nil => exact h
  | cons part parts ih =>
    rw [List.foldlM_cons] at h ⊢
    obtain ⟨p', hp', h⟩ := Steps.except_bind_eq_ok_iff.mp h
    obtain ⟨rfl, hfolder, hname⟩ := step_eq_ok hp'
    have hstep : d'.step p part = .ok (next p part) := by
      rw [step, if_pos (hfolders p hfolder), hname]
      rfl
    rw [hstep]
    exact ih h

theorem place_eq_ok (h : d.place path = .ok p) :
    p = placeOf path ∧ ∀ d' : Directory, (∀ q, d.isFolder q = true → d'.isFolder q = true) →
      d'.place path = .ok p := by
  unfold place at h
  obtain ⟨⟨⟩, hpath, h⟩ := Steps.except_bind_eq_ok_iff.mp h
  split at h
  · cases h
  · rename_i hempty
    refine ⟨foldlM_step_eq h, fun d' hfolders => ?_⟩
    unfold place
    rw [hpath, if_neg hempty]
    exact foldlM_step_mono hfolders h

/-- A path is followed part by part. -/
theorem place_of_parts (hpath : checkPath path = .ok ()) (hempty : path.isEmpty = false)
    (hparts : path.splitOn "/" = parts) (hp : parts.foldlM d.step (start path) = .ok p) :
    d.place path = .ok p := by
  unfold place
  rw [hpath, hempty, hparts]
  exact hp

/-- Folders are made along a way where no file stands, and nothing else changes. -/
theorem makeFoldersFrom_eq_ok (h : d.makeFoldersFrom p parts = .ok e) :
    e.files = d.files ∧ (∀ q, e.isFolder q = true ↔ d.isFolder q = true ∨ q ∈ way p parts) ∧
      ∀ q ∈ way p parts, d.isFolder q = true ∨ d.isFile q = false := by
  induction parts generalizing d p with
  | nil =>
    cases h
    exact ⟨rfl, fun q => by simp [way], fun q hq => absurd hq List.not_mem_nil⟩
  | cons part parts ih =>
    unfold makeFoldersFrom at h
    obtain ⟨-, -, h⟩ := Steps.except_bind_eq_ok_iff.mp h
    dsimp only at h
    split at h
    · rename_i hfolder
      obtain ⟨hfiles, hfolders, hclear⟩ := ih h
      refine ⟨hfiles, fun q => ?_, fun q hq => ?_⟩
      · rw [hfolders, way, List.mem_cons]
        constructor
        · exact Or.imp_right .inr
        · rintro (hq | rfl | hq)
          · exact .inl hq
          · exact .inl hfolder
          · exact .inr hq
      · rcases List.mem_cons.mp hq with rfl | hq
        · exact .inl hfolder
        · exact hclear q hq
    · split at h
      · cases h
      · rename_i hfile
        obtain ⟨hfiles, hfolders, hclear⟩ := ih h
        have hmade : ∀ q, Directory.isFolder { d with folders := next p part :: d.folders } q =
            true ↔ d.isFolder q = true ∨ q = next p part := by
          intro q
          simp only [isFolder, Bool.or_eq_true, decide_eq_true_eq, List.mem_cons]
          tauto
        refine ⟨hfiles, fun q => ?_, fun q hq => ?_⟩
        · rw [hfolders, hmade, way, List.mem_cons, or_assoc]
        · rcases List.mem_cons.mp hq with rfl | hq
          · exact .inr (Bool.eq_false_iff.mpr hfile)
          · rcases hclear q hq with hq | hq
            · rcases (hmade q).mp hq with hq | rfl
              · exact .inl hq
              · exact .inr (Bool.eq_false_iff.mpr hfile)
            · exact .inr hq

/-- Folders that were made in one directory are made in another one where the way is clear. -/
theorem makeFoldersFrom_of_clear (h : d.makeFoldersFrom p parts = .ok e)
    (hclear : ∀ q ∈ way p parts, d'.isFolder q = true ∨ d'.isFile q = false) :
    ∃ e', d'.makeFoldersFrom p parts = .ok e' := by
  induction parts generalizing d d' p with
  | nil => exact ⟨d', rfl⟩
  | cons part parts ih =>
    unfold makeFoldersFrom at h ⊢
    obtain ⟨⟨⟩, hname, h⟩ := Steps.except_bind_eq_ok_iff.mp h
    rw [hname]
    obtain ⟨hhere, hlater⟩ := List.forall_mem_cons.mp hclear
    have hrest : ∃ d : Directory, d.makeFoldersFrom (next p part) parts = .ok e := by
      dsimp only at h
      split at h
      · exact ⟨_, h⟩
      · split at h
        · cases h
        · exact ⟨_, h⟩
    obtain ⟨d, hrest⟩ := hrest
    change ∃ e', (if d'.isFolder (next p part) = true then _ else _) = _
    split
    · exact ih hrest hlater
    · rename_i hfolder
      rw [hhere.resolve_left hfolder, if_neg Bool.false_ne_true]
      refine ih hrest fun q hq => (hlater q hq).imp_left fun hq => ?_
      simp only [isFolder, Bool.or_eq_true, decide_eq_true_eq, List.mem_cons] at hq ⊢
      tauto

/-- What it means for a directory that a file was added. -/
structure Added (d : Directory) (path text : String) (e : Directory) : Prop where
  place_eq : e.place path = .ok (placeOf path)
  text_eq : e.files.lookup (placeOf path) = some text
  others : ∀ q, q ≠ placeOf path → e.files.lookup q = d.files.lookup q
  folders : ∀ q, e.isFolder q = true ↔ d.isFolder q = true ∨ q ∈ wayTo (Path.parent path)
  no_folder : e.isFolder (placeOf path) = false
  clear : ∀ q ∈ wayTo (Path.parent path), d.isFolder q = true ∨ d.isFile q = false

/-- A path starts in a folder that is always there. -/
theorem isFolder_start (d : Directory) (path : String) : d.isFolder (start path) = true := by
  unfold start isFolder
  split <;> rfl

theorem lookup_cons_filter (files : List (Place × String)) (p q : Place) (text : String) :
    ((p, text) :: files.filter (·.1 != p)).lookup q =
      if q = p then some text else files.lookup q := by
  rw [List.lookup_cons]
  split
  · rename_i heq
    rw [if_pos (beq_iff_eq.mp heq)]
  · rename_i hne
    have hne : q ≠ p := by simpa using hne
    rw [if_neg hne]
    induction files with
    | nil => rfl
    | cons file files ih =>
      obtain ⟨place, text'⟩ := file
      rw [List.filter_cons]
      by_cases hplace : place = p
      · subst hplace
        rw [if_neg (by simp), ih, List.lookup_cons, beq_eq_false_iff_ne.mpr hne]
      · rw [if_pos (by simpa using hplace), List.lookup_cons, List.lookup_cons, ih]

theorem write_eq_ok_iff : d.write path text = .ok e ↔ ∃ p, d.place path = .ok p ∧
    d.isFolder p = false ∧ e = { d with files := (p, text) :: d.files.filter (·.1 != p) } := by
  unfold write
  rw [Steps.except_bind_eq_ok_iff]
  refine exists_congr fun p => and_congr_right fun _ => ?_
  split
  · rename_i hfolder
    rw [hfolder]
    constructor
    · rintro ⟨⟩
    · rintro ⟨⟨⟩, -⟩
  · rename_i hfolder
    constructor
    · rintro ⟨⟩
      exact ⟨Bool.eq_false_iff.mpr hfolder, rfl⟩
    · rintro ⟨-, rfl⟩
      rfl

theorem makeFolders_eq_ok_iff : d.makeFolders path = .ok e ↔ checkPath path = .ok () ∧
    d.makeFoldersFrom (start path) (path.splitOn "/") = .ok e := by
  unfold makeFolders
  rw [Steps.except_bind_eq_ok_iff]
  constructor
  · rintro ⟨⟨⟩, h⟩
    exact h
  · exact fun h => ⟨(), h⟩

theorem add_succeeds {made : Directory} (hmade : d.makeFolders (Path.parent path) = .ok made)
    (hplace : made.place path = .ok p) (hfolder : made.isFolder p = false) (text : String) :
    d.add path text = .ok { made with files := (p, text) :: made.files.filter (·.1 != p) } :=
  Steps.except_bind_eq_ok_iff.mpr
    ⟨made, hmade, write_eq_ok_iff.mpr ⟨p, hplace, hfolder, rfl⟩⟩

theorem added_of_add (h : d.add path text = .ok e) : Added d path text e := by
  obtain ⟨made, hmade, h⟩ := Steps.except_bind_eq_ok_iff.mp h
  obtain ⟨hfiles, hfolders, hclear⟩ := makeFoldersFrom_eq_ok (makeFolders_eq_ok_iff.mp hmade).2
  obtain ⟨p, hp, hfolder, rfl⟩ := write_eq_ok_iff.mp h
  obtain ⟨rfl, hmono⟩ := place_eq_ok hp
  have hstart := isFolder_start d (Path.parent path)
  refine ⟨hmono _ fun q hq => hq, ?_, fun q hq => ?_, fun q => ?_, hfolder, fun q hq => ?_⟩
  · rw [lookup_cons_filter, if_pos rfl]
  · rw [lookup_cons_filter, if_neg hq, hfiles]
  · refine (hfolders q).trans ?_
    rw [wayTo, List.mem_cons]
    constructor
    · exact Or.imp_right .inr
    · rintro (hq | rfl | hq)
      · exact .inl hq
      · exact .inl hstart
      · exact .inr hq
  · rcases List.mem_cons.mp hq with rfl | hq
    · exact .inl hstart
    · exact hclear q hq

/-- A file that can be added to a directory can be added to one that has more folders, when no file
is in its way and its place is no folder. -/
theorem add_of_clear (h : d.add path text = .ok e)
    (hmore : ∀ q, d.isFolder q = true → d'.isFolder q = true)
    (hclear : ∀ q ∈ wayTo (Path.parent path), d'.isFolder q = true ∨ d'.isFile q = false)
    (hfolder : d'.isFolder (placeOf path) = false) : ∃ e', d'.add path text = .ok e' := by
  have hadded := added_of_add h
  obtain ⟨made, hmade, h⟩ := Steps.except_bind_eq_ok_iff.mp h
  obtain ⟨hpath, hmade⟩ := makeFolders_eq_ok_iff.mp hmade
  obtain ⟨-, hfolders, -⟩ := makeFoldersFrom_eq_ok hmade
  obtain ⟨p, hp, -⟩ := write_eq_ok_iff.mp h
  obtain ⟨rfl, hmono⟩ := place_eq_ok hp
  obtain ⟨made', hmade'⟩ : ∃ made', d'.makeFoldersFrom (start (Path.parent path))
      ((Path.parent path).splitOn "/") = .ok made' :=
    makeFoldersFrom_of_clear hmade fun q hq => hclear q (List.mem_cons_of_mem _ hq)
  obtain ⟨-, hfolders', -⟩ := makeFoldersFrom_eq_ok hmade'
  have hplace : made'.place path = .ok (placeOf path) :=
    hmono made' fun q hq => (hfolders' q).mpr (((hfolders q).mp hq).imp_left (hmore q))
  have hnot : made'.isFolder (placeOf path) = false := by
    refine Bool.eq_false_iff.mpr fun hq => ?_
    rcases (hfolders' _).mp hq with hq | hq
    · rw [hfolder] at hq
      cases hq
    · have hlater := (hadded.folders _).mpr (.inr (List.mem_cons_of_mem _ hq))
      rw [hadded.no_folder] at hlater
      cases hlater
  exact ⟨_, add_succeeds (makeFolders_eq_ok_iff.mpr ⟨hpath, hmade'⟩) hplace hnot text⟩

end Cli.Directory

end Thrift
