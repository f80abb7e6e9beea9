-- The blocks of a script. Whatever is written opens and closes blocks in pairs, so that the level
-- at the end of a script is the one at its start, and the lines that stand outside of all blocks
-- are those that open and close the definitions of the file.
import Thrift.Proofs.Steps
import Thrift.Script.File

namespace Thrift.Script

/-! ## Blocks in pairs -/

theorem braced_eq (head : String) (body : List Piece) : braced head body =
    .line (head ++ " \x7b") :: ([.indent] ++ body ++ [.dedent]) ++ [.line "\x7d"] := by
  simp [braced, enclosed, chained]

/-- Every block that the pieces open they close again, and no other. -/
inductive Nested : List Piece → Prop
  | nil : Nested []
  | line (text : String) : Nested [.line text]
  | blank : Nested [.blank]
  | block {body : List Piece} (h : Nested body) : Nested ([.indent] ++ body ++ [.dedent])
  | append {ps qs : List Piece} (hp : Nested ps) (hq : Nested qs) : Nested (ps ++ qs)

namespace Nested

theorem cons {text : String} {ps : List Piece} (h : Nested ps) : Nested (.line text :: ps) :=
  (Nested.line text).append h

theorem concat_line {ps : List Piece} (h : Nested ps) (text : String) :
    Nested (ps ++ [.line text]) := h.append (.line text)

theorem flatMap {α : Type} {f : α → List Piece} {as : List α} (h : ∀ a ∈ as, Nested (f a)) :
    Nested (as.flatMap f) := by
  induction as with
  | nil => exact .nil
  | cons a as ih =>
    rw [List.flatMap_cons]
    exact (h a List.mem_cons_self).append (ih fun b hb => h b (List.mem_cons_of_mem a hb))

theorem flatten {pss : List (List Piece)} (h : ∀ ps ∈ pss, Nested ps) : Nested pss.flatten := by
  rw [← List.flatMap_id]
  exact flatMap h

/-- Lines only. -/
theorem map {α : Type} (f : α → String) (as : List α) :
    Nested (as.map fun a => .line (f a)) := by
  rw [List.map_eq_flatMap]
  exact flatMap fun a _ => .line (f a)

theorem chained {blocks : List (String × List Piece)} (h : ∀ b ∈ blocks, Nested b.2)
    (foot : String) : Nested (chained blocks foot) := by
  refine (flatMap fun b hb => ?_).concat_line foot
  exact (Nested.block (h b hb)).cons

theorem enclosed {body : List Piece} (head : String) (h : Nested body) (foot : String) :
    Nested (enclosed head body foot) :=
  chained (by rintro b (_ | ⟨_, ⟨⟩⟩); exact h) foot

theorem braced {body : List Piece} (head : String) (h : Nested body) :
    Nested (braced head body) := enclosed _ h _

end Nested

/-! ## Lines outside of all blocks -/

theorem levelAfter_append (ps qs : List Piece) (level : Nat) :
    levelAfter (ps ++ qs) level = levelAfter qs (levelAfter ps level) := List.foldl_append

/-- The text of a line at level zero. -/
def Piece.outer? : Piece → Nat → Option String
  | line text, 0 => some text
  | _, _ => none

/-- The lines at level zero, from a level on. -/
def outermost : Nat → List Piece → List String
  | _, [] => []
  | level, p :: ps => (p.outer? level).toList ++ outermost (p.level level) ps

theorem outermost_append (level : Nat) (ps qs : List Piece) :
    outermost level (ps ++ qs) = outermost level ps ++ outermost (levelAfter ps level) qs := by
  induction ps generalizing level with
  | nil => rfl
  | cons p ps ih =>
    rw [List.cons_append, outermost, outermost, ih, List.append_assoc]
    rfl

namespace Nested

/-- Blocks in pairs leave the level as it was. -/
theorem levelAfter_eq {ps : List Piece} (h : Nested ps) (level : Nat) :
    levelAfter ps level = level := by
  induction h generalizing level with
  | nil | line | blank => rfl
  | block _ ih =>
    rw [levelAfter_append, levelAfter_append]
    exact congrArg (· - 1) (ih (level + 1))
  | append _ _ ihp ihq => rw [levelAfter_append, ihp, ihq]

/-- Inside of a block no line is outside of all blocks. -/
theorem outermost_inside {ps : List Piece} (h : Nested ps) (level : Nat) :
    outermost (level + 1) ps = [] := by
  induction h generalizing level with
  | nil | line | blank => rfl
  | block hbody ih =>
    rw [Script.outermost_append, Script.outermost_append]
    exact (List.append_nil _).trans (ih (level + 1))
  | append hp _ ihp ihq => rw [Script.outermost_append, hp.levelAfter_eq, ihp, ihq, List.append_nil]

theorem outermost_append {ps : List Piece} (h : Nested ps) (qs : List Piece) :
    outermost 0 (ps ++ qs) = outermost 0 ps ++ outermost 0 qs := by
  rw [Script.outermost_append, h.levelAfter_eq]

theorem outermost_flatMap {α : Type} {f : α → List Piece} {as : List α}
    (h : ∀ a ∈ as, Nested (f a)) :
    outermost 0 (as.flatMap f) = as.flatMap fun a => outermost 0 (f a) := by
  induction as with
  | nil => rfl
  | cons a as ih =>
    rw [List.flatMap_cons, (h a List.mem_cons_self).outermost_append,
      ih fun b hb => h b (List.mem_cons_of_mem a hb), List.flatMap_cons]

/-- Of a block between braces only the braces are outside. -/
theorem outermost_braced {body : List Piece} (head : String) (h : Nested body) :
    outermost 0 (Script.braced head body) = [head ++ " \x7b", "\x7d"] := by
  have hinside : outermost 0 ([.indent] ++ body ++ [.dedent]) = [] := by
    rw [Script.outermost_append, Script.outermost_append]
    exact (List.append_nil _).trans (h.outermost_inside 0)
  rw [braced_eq, (Nested.block h).cons.outermost_append, outermost]
  exact congrArg (fun ls => _ ++ ls ++ _) hinside

end Nested

/-! ## Layouts -/

theorem texts_append (width : Nat) (ps qs : List Piece) (level : Nat) :
    texts width level (ps ++ qs) = texts width level ps ++ texts width (levelAfter ps level) qs := by
  induction ps generalizing level with
  | nil => rfl
  | cons p ps ih =>
    rw [List.cons_append, texts, ih]
    rfl

theorem layout_append (width : Nat) {ps : List Piece} (h : Nested ps) (qs : List Piece) :
    layout width (ps ++ qs) = layout width ps ++ layout width qs := by
  rw [layout, texts_append, h.levelAfter_eq, String.join_append]
  rfl

theorem texts_lines {α : Type} (width level : Nat) (f : α → String) (as : List α) :
    texts width level (as.map fun a => .line (f a)) =
      as.map fun a => (Piece.line (f a)).text width level := by
  induction as with
  | nil => rfl
  | cons a as ih =>
    rw [List.map_cons, List.map_cons, texts]
    exact congrArg _ ih

/-- A block between braces that stands outside of all others. -/
theorem layout_braced (width : Nat) (head : String) {body : List Piece} (h : Nested body) :
    layout width (braced head body) =
      head ++ " \x7b\n" ++ String.join (texts width 1 body) ++ "\x7d\n" := by
  have htexts : texts width 0 (braced head body) =
      (head ++ " \x7b\n") :: "" :: (texts width 1 body ++ ["", "\x7d\n"]) := by
    rw [braced_eq]
    simp [texts, texts_append, h.levelAfter_eq, Piece.text, Piece.level, String.append_assoc]
  rw [layout, htexts]
  simp [String.append_assoc]

/-! ## Statements -/

theorem nested_refusal (condition kind message : String) :
    Nested (refusal condition kind message) := .braced _ (.line _)

theorem nested_countField (place : String) : Nested (countField place) := .braced _ (.line _)

theorem nested_constructLines (struct : String) (kind : StructKind) (fields : List FieldInit) :
    Nested (constructLines struct kind fields) := by
  have hrequired : Nested (requiredChecks struct fields) :=
    .flatMap fun f _ => nested_refusal _ _ _
  have hunion : Nested (unionChecks struct fields) := by
    refine ((Nested.line _).append (.flatMap fun f _ => nested_countField _)).append ?_
    refine .chained (fun b hb => ?_) _
    rcases hb with _ | ⟨_, _ | ⟨_, ⟨⟩⟩⟩ <;> exact .line _
  have hdefaults : Nested (defaults fields) := by
    refine .flatMap fun f _ => ?_
    split
    · exact .braced _ (.line _)
    · exact .nil
  refine ((hrequired.append ?_).append hdefaults).concat_line _
  split
  · exact hunion
  · exact .nil

theorem nested_singleFieldLines (source : Expr) (struct : String) (fields : List String) :
    Nested (singleFieldLines source struct fields) :=
  ((Nested.line _).append (.flatMap fun _ _ => nested_countField _)).append (nested_refusal _ _ _)

/-- The block of a case ends with the line that leaves it. -/
theorem casesLines_cons (s : Scene) (id : Int16) (body : List Stmt)
    (cases : List (Int16 × List Stmt)) (l : Locals) :
    (casesLines s ((id, body) :: cases) l).1 =
      .line ("case " ++ toString id.toInt ++ ":") ::
        ([.indent] ++ ((blockLines s body l).1 ++ [.line "break;"]) ++ [.dedent]) ++
          (casesLines s cases (blockLines s body l).2).1 := by
  simp [casesLines]

mutual

theorem nested_stmtLines (s : Scene) (stmt : Stmt) (l : Locals) :
    Nested (stmtLines s stmt l).1 := by
  cases stmt with
  | loop body => exact .braced _ (nested_blockLines s body l)
  | «switch» header cases default =>
    exact .braced _ ((nested_casesLines s cases l).append (.braced _ (nested_blockLines s _ _)))
  | ifWireType header expected matching otherwise =>
    have hmatching := nested_blockLines s matching l
    have hotherwise := nested_blockLines s otherwise (blockLines s matching l).2
    simp only [stmtLines]
    split
    · exact .braced _ hmatching
    · refine .chained (fun b hb => ?_) _
      rcases hb with _ | ⟨_, _ | ⟨_, ⟨⟩⟩⟩
      · exact hmatching
      · exact hotherwise
  | breakIfStop header => exact .braced _ (.line _)
  | repeated metadata counter body => exact .braced _ (nested_blockLines s body l)
  | construct struct kind fields => exact nested_constructLines struct kind fields
  | forEach kind source key value body => exact .enclosed _ (nested_blockLines s body _) _
  | ifPresent source body => exact .braced _ (nested_blockLines s body l)
  | requirePresent source field => exact nested_refusal _ _ _
  | requireSingleField source struct fields => exact nested_singleFieldLines source struct fields
  | _ => exact .line _

theorem nested_blockLines (s : Scene) (code : List Stmt) (l : Locals) :
    Nested (blockLines s code l).1 := by
  cases code with
  | nil => exact .nil
  | cons stmt stmts => exact (nested_stmtLines s stmt l).append (nested_blockLines s stmts _)

theorem nested_casesLines (s : Scene) (cases : List (Int16 × List Stmt)) (l : Locals) :
    Nested (casesLines s cases l).1 := by
  cases cases with
  | nil => exact .nil
  | cons case cases =>
    obtain ⟨id, body⟩ := case
    have hblock := Nested.block ((nested_blockLines s body l).concat_line "break;")
    have hmore := nested_casesLines s cases (blockLines s body l).2
    rw [casesLines_cons]
    exact hblock.cons.append hmore

end

/-! ## Classes -/

theorem nested_constructorLines (fields : List FieldLayout) : Nested (constructorLines fields) :=
  .braced _ (.flatMap fun _ _ => .braced _ (.line _))

/-- What stands inside the class of a struct. -/
theorem nested_classBody (t : SymbolTable) (c : StructCodec) : ∃ body, Nested body ∧
    classLines t c = braced ("export class " ++ c.name) body := by
  refine ⟨_, ?_, rfl⟩
  have hwrite := (nested_blockLines ⟨t, c⟩ c.encode []).concat_line "return;"
  have hread : Nested ([.line "const _args: any = \x7b\x7d;"] ++
      (blockLines ⟨t, c⟩ c.decode (decodeLocals t c)).1) :=
    (nested_blockLines ⟨t, c⟩ c.decode (decodeLocals t c)).cons
  refine (((Nested.map _ _).append (nested_constructorLines _)).append ?_).append ?_
  · exact .braced _ hwrite
  · exact .braced _ hread

/-! ## Services -/

theorem nested_awaitLines (v : MethodView) (text : String) :
    Nested (awaitLines v (.line text)) := by
  refine .enclosed _ (.append (.enclosed _ (.cons ?_) _) (.line _)) _
  refine .chained (fun b hb => ?_) _
  rcases hb with _ | ⟨_, _ | ⟨_, ⟨⟩⟩⟩ <;> exact .line _

theorem nested_callLines (v : MethodView) : Nested (callLines v) := by
  refine .braced _ (.cons ?_)
  split
  · exact .cons (.line _)
  · exact nested_awaitLines v _

theorem nested_sendLines (v : MethodView) : Nested (sendLines v) :=
  .braced _ (.cons (.cons (.cons (.cons (.cons (.line _))))))

theorem nested_skipMessage : Nested skipMessage := .cons (.line _)

theorem nested_replyLines (name type payload : String) : Nested (replyLines name type payload) :=
  .cons (.cons (.cons (.line _)))

theorem nested_returnIfSet (member callback : String) : Nested (returnIfSet member callback) :=
  .braced _ (.line _)

theorem nested_recvLines (v : MethodView) (result : String) : Nested (recvLines v result) := by
  have hmissing : Nested (braced "if (callback == null)" (skipMessage ++ [.line "return;"])) :=
    .braced _ (nested_skipMessage.concat_line _)
  have hthrown : Nested (braced "if (mtype === thrift.MessageType.EXCEPTION)"
      [declared "x" "thrift.TApplicationException" "new thrift.TApplicationException();",
        .line "x.read(input);", .line "input.readMessageEnd();", .line "return callback(x);"]) :=
    .braced _ (.cons (.cons (.cons (.line _))))
  refine .braced _ (.concat_line (.append (.append (.append (.append ?_ hthrown) ?_) ?_) ?_) _)
  · exact (Nested.line _).append hmissing
  · exact .cons (.line _)
  · exact nested_returnIfSet _ _
  · exact .flatMap fun _ _ => nested_returnIfSet _ _

theorem nested_clientMethodLines (v : MethodView) : Nested (clientMethodLines v) := by
  refine ((nested_callLines v).append (nested_sendLines v)).append ?_
  split
  · exact nested_recvLines v _
  · exact .nil

theorem nested_recvSwitch (views : List MethodView) : Nested (recvSwitch views) := by
  refine .braced _ (.cons (.braced _ (.append (.flatMap fun v _ => ?_) ?_)))
  · exact .cons (.block (.cons (.line _)))
  · exact .braced _ nested_skipMessage

theorem nested_clientState : Nested clientState := by
  refine .append (.append ?_ (.braced _ ?_)) (.braced _ (.line _))
  · exact .cons (.cons (.cons (.line _)))
  · exact .cons (.cons (.cons (.line _)))

theorem nested_clientLines (views : List MethodView) : Nested (clientLines views) :=
  .braced _ ((nested_clientState.append (.flatMap fun v _ => nested_clientMethodLines v)).append
    (nested_recvSwitch views))

theorem nested_processSwitch (views : List MethodView) : Nested (processSwitch views) := by
  refine .braced _ (.append (.cons (.line _)) (.braced _ (.append ?_ (.braced _ ?_))))
  · exact .flatMap fun v _ => .braced _ (.cons (.line _))
  · exact ((nested_skipMessage.append (.line _)).append (nested_replyLines _ _ _)).concat_line _

theorem nested_handleLines (v : MethodView) : Nested (handleLines v) := by
  refine .chained (fun b hb => ?_) _
  rcases hb with _ | ⟨_, _ | ⟨_, ⟨⟩⟩⟩
  · exact .cons (.cons (.line _))
  · exact .line _

theorem nested_failureLines (v : MethodView) (result : String) :
    Nested (failureLines v result) := by
  have hundeclared : Nested (undeclaredLines v) := (nested_replyLines _ _ _).cons
  have hdeclared : ∀ b ∈ v.method.exceptions.map (declaredBlock v result), Nested b.2 := by
    intro b hb
    obtain ⟨slot, -, rfl⟩ := List.mem_map.mp hb
    exact (nested_replyLines _ _ _).cons
  rw [failureLines]
  split
  · exact hundeclared
  · rename_i first others heq
    rw [heq] at hdeclared
    refine .chained (fun b hb => ?_) _
    rcases List.mem_cons.mp hb with rfl | hb
    · exact hdeclared _ List.mem_cons_self
    · rcases List.mem_append.mp hb with hb | hb
      · obtain ⟨b', hb', rfl⟩ := List.mem_map.mp hb
        exact hdeclared b' (List.mem_cons_of_mem _ hb')
      · cases List.mem_singleton.mp hb
        exact hundeclared

theorem nested_processLines (v : MethodView) : Nested (processLines v) := by
  refine .braced _ ?_
  split
  · refine .chained (fun b hb => ?_) _
    cases List.mem_singleton.mp hb
    exact nested_handleLines v
  · refine .chained (fun b hb => ?_) _
    rcases hb with _ | ⟨_, _ | ⟨_, _ | ⟨_, ⟨⟩⟩⟩⟩
    · exact nested_handleLines v
    · exact (nested_replyLines _ _ _).cons
    · exact nested_failureLines v _

theorem nested_processorLines (views : List MethodView) : Nested (processorLines views) := by
  refine .braced _ (.append (.append (.append (.line _) ?_) ?_) ?_)
  · exact .braced _ (.line _)
  · exact nested_processSwitch views
  · exact .flatMap fun v _ => nested_processLines v

/-- What stands inside the namespace of a service. -/
theorem nested_serviceBody (c : Compiled) (s : ServiceCodec) : ∃ body, Nested body ∧
    serviceLines c s = braced ("export namespace " ++ s.name) body := by
  refine ⟨_, ?_, rfl⟩
  have hhandler : Nested (handlerLines (s.methods.map (MethodView.ofMethod c))) :=
    .braced _ (.map _ _)
  exact (((hhandler.append .blank).append (nested_clientLines _)).append .blank).append
    (nested_processorLines _)

/-! ## Files -/

theorem nested_statementLines {t : SymbolTable} {st : Statement} {pieces : List Piece}
    (h : statementLines t st = .ok pieces) : Nested pieces := by
  cases st with
  | enumeration d =>
    cases h
    exact (Nested.braced _ (.map _ _)).append .blank
  | typedef d =>
    cases h
    exact (Nested.line _).append .blank
  | constant d =>
    obtain ⟨_, hline, h⟩ := Steps.except_bind_eq_ok_iff.mp h
    obtain ⟨value, -, hline⟩ := Steps.except_bind_eq_ok_iff.mp hline
    cases hline
    cases h
    exact (Nested.line _).append .blank
  | _ =>
    cases h
    exact .nil

theorem nested_statements {t : SymbolTable} {body : List Statement}
    {statements : List (List Piece)} (h : body.mapM (statementLines t) = .ok statements) :
    Nested statements.flatten := by
  refine .flatten fun pieces hpieces => ?_
  obtain ⟨st, -, hst⟩ := Steps.forall₂_mem_right (Steps.mapM_eq_ok_iff.mp h) hpieces
  exact nested_statementLines hst

theorem nested_classLines (t : SymbolTable) (c : StructCodec) :
    Nested (classLines t c ++ [.blank]) := by
  obtain ⟨body, hbody, heq⟩ := nested_classBody t c
  rw [heq]
  exact (Nested.braced _ hbody).append .blank

theorem nested_serviceLines (c : Compiled) (s : ServiceCodec) :
    Nested (serviceLines c s ++ [.blank]) := by
  obtain ⟨body, hbody, heq⟩ := nested_serviceBody c s
  rw [heq]
  exact (Nested.braced _ hbody).append .blank

/-- A script closes every block that it opens. -/
theorem nested_bodyLines {t : SymbolTable} {d : Document} {c : Compiled} {pieces : List Piece}
    (h : bodyLines t d c = .ok pieces) : Nested pieces := by
  obtain ⟨statements, hstatements, h⟩ := Steps.except_bind_eq_ok_iff.mp h
  cases h
  exact ((nested_statements hstatements).append (.flatMap fun s _ => nested_classLines t s)).append
    (.flatMap fun s _ => nested_serviceLines c s)

end Thrift.Script
