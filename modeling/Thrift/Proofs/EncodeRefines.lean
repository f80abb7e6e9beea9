-- Running a compiled document encodes what its schema tells. The statements that store a value
-- bind names of their own for elements and keys and leave every other binding as it is.
import Thrift.Proofs.DirectEncode
import Thrift.Proofs.Lookup
import Thrift.Proofs.Realized
import Thrift.Proofs.Writing

namespace Thrift

namespace Machine

/-! ## Bindings -/

/-- The instance stays, and bindings change only under certain names. -/
structure Keeps (names : List String) (s s' : Sight) : Prop where
  this_eq : s'.this = s.this
  lookup_eq : ∀ y, y ∉ names → s'.elements.lookup y = s.elements.lookup y

theorem Keeps.refl (names : List String) (s : Sight) : Keeps names s s := ⟨rfl, fun _ _ => rfl⟩

theorem Keeps.trans {names : List String} {s t u : Sight} (h : Keeps names s t)
    (h' : Keeps names t u) : Keeps names s u :=
  ⟨h'.this_eq.trans h.this_eq, fun y hy => (h'.lookup_eq y hy).trans (h.lookup_eq y hy)⟩

theorem Keeps.mono {names names' : List String} {s s' : Sight} (h : Keeps names s s')
    (hsub : ∀ y ∈ names, y ∈ names') : Keeps names' s s' :=
  ⟨h.this_eq, fun y hy => h.lookup_eq y fun hn => hy (hsub y hn)⟩

theorem keeps_bind {names : List String} (s : Sight) {x : String} (h : x ∈ names) (v : Value) :
    Keeps names s (s.bind x v) := by
  refine ⟨rfl, fun y hy => ?_⟩
  have hne : y ≠ x := by
    rintro rfl
    exact hy h
  exact (lookup_cons_ne hne v _).trans (lookup_filter_ne hne s.elements)

theorem find_bound_self (s : Sight) (x : String) (v : Value) :
    find (s.bind x v) (.bound x) = .ok (some v) := by
  rw [find, Sight.bind, lookup_cons_self]

theorem find_bound_of_keeps {names : List String} {s s' : Sight} {x : String} {v : Value}
    (h : Keeps names s s') (hx : x ∉ names) (hv : find s (.bound x) = .ok (some v)) :
    find s' (.bound x) = .ok (some v) := by
  rw [find] at hv ⊢
  rw [h.lookup_eq x hx]
  exact hv

theorem require_eq {s : Sight} {e : Expr} {v : Value} (h : find s e = .ok (some v)) :
    require s e = .ok v := by
  rw [require, h]
  rfl

/-! ## Blocks -/

theorem encodeBlock_append (nested : Nested) (a b : List Stmt) (s : Sight) :
    encodeBlock nested (a ++ b) s = encodeBlock nested a s >>= encodeBlock nested b := by
  induction a generalizing s with
  | nil => rw [List.nil_append, encodeBlock, pure_bind]
  | cons stmt a ih =>
    rw [List.cons_append, encodeBlock, encodeBlock, bind_assoc]
    congr 1
    funext s
    exact ih s

theorem encodeBlock_singleton (nested : Nested) (stmt : Stmt) (s : Sight) :
    encodeBlock nested [stmt] s = encodeStmt nested stmt s := by
  rw [encodeBlock]
  conv_rhs => rw [← bind_pure (encodeStmt nested stmt s)]
  congr 1

theorem encodeBlock_writeContainer (nested : Nested) (kind : ContainerKind) {source : Expr}
    (key : Option String) (x : String) (body : List Stmt) {s : Sight} {v : Value}
    (h : find s source = .ok (some v)) :
    encodeBlock nested (Draft.writeContainer kind source key x body) s =
      writeContainerBegin kind v >>= fun _ =>
        overContainer (encodeBlock nested body) key x v s := by
  rw [Draft.writeContainer, encodeBlock, encodeStmt, require_eq h, given, bind_assoc]
  congr 1
  funext _
  rw [pure_bind, encodeBlock, encodeStmt, require_eq h, given]
  conv_rhs => rw [← bind_pure (overContainer _ _ _ _ _)]
  congr 1

/-! ## Storing values -/

open Writing (Agree)

/-- The statements write what `item` writes of the value at the source, and bind no other names
than they say. -/
def StoresAs (nested : Nested) (item : Value → Writing Unit) (source : Expr)
    (code : List Stmt) : Prop :=
  ∀ s v, find s source = .ok (some v) →
    Agree (fun _ s' => Keeps (Stmt.boundIn code) s s') (item v) (encodeBlock nested code s)

theorem overItems_agree {nested : Nested} {item : Value → Writing Unit} {x : String}
    {body : List Stmt} (h : StoresAs nested item (.bound x) body) (vs : List Value) (s : Sight) :
    Agree (fun _ s' => Keeps (x :: Stmt.boundIn body) s s') (Form.writeItems item vs)
      (overItems (encodeBlock nested body) x vs s) := by
  induction vs generalizing s with
  | nil => exact .pure (.refl _ s)
  | cons v vs ih =>
    rw [Form.writeItems, overItems]
    refine (h _ v (find_bound_self s x v)).bind fun _ s' hs' => (ih s').mono fun _ s'' hs'' => ?_
    have hround := (keeps_bind s List.mem_cons_self v).trans
      (hs'.mono fun _ => List.mem_cons_of_mem x)
    exact hround.trans hs''

theorem overEntries_agree {nested : Nested} {key item : Value → Writing Unit} {kn x : String}
    {kbody body : List Stmt} (hkx : kn ≠ x) (hx : x ∉ Stmt.boundIn kbody)
    (hkey : StoresAs nested key (.bound kn) kbody) (h : StoresAs nested item (.bound x) body)
    (es : List (Value × Value)) (s : Sight) :
    Agree (fun _ s' => Keeps (kn :: x :: Stmt.boundIn (kbody ++ body)) s s')
      (Form.writeEntries key item es)
      (overEntries (encodeBlock nested (kbody ++ body)) kn x es s) := by
  have hin : ∀ y, y ∈ Stmt.boundIn kbody ∨ y ∈ Stmt.boundIn body →
      y ∈ kn :: x :: Stmt.boundIn (kbody ++ body) := by
    intro y hy
    rw [Stmt.boundIn_append]
    exact List.mem_cons_of_mem kn (List.mem_cons_of_mem x (List.mem_append.mpr hy))
  induction es generalizing s with
  | nil => exact .pure (.refl _ s)
  | cons e es ih =>
    obtain ⟨k, v⟩ := e
    rw [Form.writeEntries, overEntries, encodeBlock_append, bind_assoc]
    have hk : find ((s.bind kn k).bind x v) (.bound kn) = .ok (some k) :=
      find_bound_of_keeps (keeps_bind _ (List.mem_singleton.mpr rfl) v)
        (fun hmem => hkx (List.mem_singleton.mp hmem)) (find_bound_self s kn k)
    refine (hkey _ k hk).bind fun _ s₁ hs₁ => ?_
    have hv := find_bound_of_keeps hs₁ hx (find_bound_self _ x v)
    refine (h s₁ v hv).bind fun _ s₂ hs₂ => (ih s₂).mono fun _ s₃ hs₃ => ?_
    have hbound : Keeps (kn :: x :: Stmt.boundIn (kbody ++ body)) s ((s.bind kn k).bind x v) :=
      (keeps_bind s List.mem_cons_self k).trans
        (keeps_bind _ (List.mem_cons_of_mem kn List.mem_cons_self) v)
    have hround := (hs₁.mono fun y hy => hin y (.inl hy)).trans
      (hs₂.mono fun y hy => hin y (.inr hy))
    exact (hbound.trans hround).trans hs₃

/-- A value that is no container of the kind is refused before its elements are looked at. -/
theorem refused_agree {R : Unit → Sight → Prop} {expected : String} {v : Value}
    {next : Unit → Writing Sight} :
    Agree R (given (mistaken expected v) fun _ : Unit => Writing.done ())
      ((given (mistaken expected v) fun _ : Unit => Writing.done ()) >>= next) :=
  .stop _

theorem list_agree {nested : Nested} {e : Form} {source : Expr} {x : String} {body : List Stmt}
    (h : StoresAs nested (e.write nested) (.bound x) body) :
    StoresAs nested ((Form.list e).write nested) source
      (Draft.writeContainer (.list e.wireType) source none x body) := by
  intro s v hv
  rw [encodeBlock_writeContainer nested _ none x body hv, Stmt.boundIn_writeContainer]
  cases v with
  | list items =>
    exact (Agree.refl _).bind fun _ _ _ => overItems_agree h items s
  | _ => exact refused_agree

theorem set_agree {nested : Nested} {e : Form} {source : Expr} {x : String} {body : List Stmt}
    (h : StoresAs nested (e.write nested) (.bound x) body) :
    StoresAs nested ((Form.set e).write nested) source
      (Draft.writeContainer (.set e.wireType) source none x body) := by
  intro s v hv
  rw [encodeBlock_writeContainer nested _ none x body hv, Stmt.boundIn_writeContainer]
  cases v with
  | set items =>
    exact (Agree.refl _).bind fun _ _ _ => overItems_agree h items s
  | _ => exact refused_agree

theorem map_agree {nested : Nested} {k e : Form} {source : Expr} {kn x : String}
    {kbody body : List Stmt} (hkx : kn ≠ x) (hx : x ∉ Stmt.boundIn kbody)
    (hkey : StoresAs nested (k.write nested) (.bound kn) kbody)
    (h : StoresAs nested (e.write nested) (.bound x) body) :
    StoresAs nested ((Form.map k e).write nested) source
      (Draft.writeContainer (.map k.wireType e.wireType) source (some kn) x (kbody ++ body)) := by
  intro s v hv
  rw [encodeBlock_writeContainer nested _ (some kn) x _ hv, Stmt.boundIn_writeContainer]
  cases v with
  | map entries =>
    exact (Agree.refl _).bind fun _ _ _ => overEntries_agree hkx hx hkey h entries s
  | _ => exact refused_agree

/-- A value that is written as it is found. -/
theorem write_agree {nested : Nested} {codec : ValueCodec} {source : Expr} :
    StoresAs nested (writeValue nested codec) source [.write codec source] := by
  intro s v hv
  rw [encodeBlock_singleton, encodeStmt, require_eq hv, given,
    ← bind_pure (writeValue nested codec v), bind_assoc]
  exact (Agree.refl _).bind fun _ _ _ => .pure (.refl _ s)

/-- Statements that store a form write what the form writes. -/
theorem stores_agree {nested : Nested} {form : Form} {source : Expr} {code : List Stmt}
    (h : Stores form source code) : StoresAs nested (form.write nested) source code := by
  induction h with
  | scalar kind source => exact write_agree
  | struct name source => exact write_agree
  | list _ ih => exact list_agree ih
  | set _ ih => exact set_agree ih
  | map hkv hv _ _ ihk ih => exact map_agree hkv hv ihk ih
  | void source => exact fun s _ _ => .pure (.refl _ s)

/-! ## Members -/

theorem isPresent_eq (v : StructValue) (field : String) :
    isPresent (v.get? field) = (v.held? field).isSome := by
  unfold StructValue.held?
  rcases v.get? field with _ | w
  · rfl
  · cases w <;> rfl

/-- The statement of a member writes the member and keeps the instance. -/
theorem member_agree {nested : Nested} {m : Member} {stmt : Stmt} (h : StoresMember m stmt)
    (s : Sight) :
    Agree (fun _ s' => s'.this = s.this) (m.write nested s.this) (encodeStmt nested stmt s) := by
  obtain ⟨hcode⟩ := h
  rename_i code
  have hfind : find s (.field .this m.name) = .ok (s.this.get? m.name) := by
    rw [find]
  rw [encodeStmt, hfind, given, isPresent_eq, Member.write]
  rcases hw : s.this.held? m.name with _ | w
  · exact .pure rfl
  · have hvalue : find s (.field .this m.name) = .ok (some w) := by
      rw [hfind, (StructValue.held?_eq_some_iff.mp hw).1]
    rw [Option.isSome_some, if_pos rfl, List.append_assoc, List.singleton_append, encodeBlock,
      encodeStmt, bind_assoc]
    refine (Agree.refl _).bind fun _ _ _ => ?_
    rw [pure_bind, encodeBlock_append, ← bind_pure (m.form.write nested w)]
    refine (stores_agree hcode s w hvalue).bind fun _ s' hs' => ?_
    rw [encodeBlock_singleton, encodeStmt]
    exact .pure hs'.this_eq

theorem members_agree {nested : Nested} {ms : List Member} {stmts : List Stmt}
    (h : List.Forall₂ StoresMember ms stmts) (s : Sight) :
    Agree (fun _ s' => s'.this = s.this) (Record.writeMembers nested s.this ms)
      (encodeBlock nested stmts s) := by
  induction h generalizing s with
  | nil => exact .pure rfl
  | cons hm _ ih =>
    rw [Record.writeMembers, encodeBlock]
    refine (member_agree hm s).bind fun _ s' hs' => ?_
    rw [← hs']
    exact ih s'

/-! ## Checks -/

theorem checkSet_agree {nested : Nested} {fields : List FieldLayout} {ms : List Member}
    (h : List.Forall₂ LaidOut fields ms) (s : Sight) :
    Agree (fun _ s' => s' = s) (Record.checkSet s.this ms)
      (encodeBlock nested (fields.map fun f =>
        .requirePresent (StructCodec.fieldOfThis f) f.name) s) := by
  induction h with
  | nil => exact .pure rfl
  | @cons f m fields ms hf _ ih =>
    have hfind : find s (StructCodec.fieldOfThis f) = .ok (s.this.get? m.name) := by
      rw [StructCodec.fieldOfThis, hf.name_eq, find]
    rw [List.map_cons, encodeBlock, encodeStmt, hfind, given, isPresent_eq, Record.checkSet,
      hf.name_eq]
    split
    · rw [pure_bind]
      exact ih
    · exact .fail _

theorem checkUnion_agree {nested : Nested} {codec : StructCodec} {r : Record}
    (h : List.Forall₂ LaidOut codec.fields r.members) (s : Sight) :
    Agree (fun _ s' => s' = s) (r.checkUnion s.this)
      (encodeBlock nested (if r.kind = .union then
        [.requireSingleField .this r.name (codec.fields.map (·.name))] else []) s) := by
  have hnames : codec.fields.map (·.name) = r.members.map (·.name) :=
    Steps.map_eq_of_forall₂ h fun _ _ h => h.name_eq
  rw [Record.checkUnion]
  by_cases hunion : r.kind = .union
  · rw [if_pos hunion, encodeBlock_singleton, encodeStmt, structAt, given, hnames, List.countP_map]
    simp only [Function.comp_def, isPresent_eq, hunion, true_and]
    split
    · exact .fail _
    · rename_i hcount
      rw [if_pos (not_not.mp hcount)]
      exact .pure rfl
  · rw [if_neg hunion, if_neg fun h => hunion h.1]
    exact .pure rfl

/-- What must hold before anything is sent is checked as the schema tells. -/
theorem checks_agree {nested : Nested} {codec : StructCodec} {r : Record}
    (h : List.Forall₂ LaidOut codec.fields r.members) (s : Sight) :
    Agree (fun _ s' => s' = s)
      (r.checkUnion s.this >>= fun _ => Record.checkSet s.this (r.members.filter (·.required)))
      (encodeBlock nested (StructCodec.checks r.kind r.name codec.fields) s) := by
  have hrequired : List.Forall₂ LaidOut (codec.fields.filter (·.isRequired))
      (r.members.filter (·.required)) :=
    List.rel_filter (fun l m h => by simp [h.required_eq]) h
  rw [StructCodec.checks, encodeBlock_append]
  refine (checkUnion_agree h s).bind fun _ s' hs' => ?_
  subst hs'
  exact checkSet_agree hrequired s'

/-! ## Structs -/

/-- Running the codec of a record writes the record. -/
theorem encode_record_eq {codec : StructCodec} {r : Record} (h : Realizes codec r)
    (nested : Nested) (v : StructValue) :
    discard (encodeBlock nested codec.encode ⟨v, []⟩) = r.write nested v := by
  obtain ⟨stmts, hstmts, hencode⟩ := h.encode
  have hends : ∀ s, s.this = v → Agree (fun _ _ => True)
      (Record.writeMembers nested v r.sent >>= fun _ => Writing.fieldStop)
      (encodeBlock nested (stmts ++ [.writeFieldStop, .writeStructEnd]) s) := by
    intro s hs
    subst hs
    rw [encodeBlock_append, ← bind_pure Writing.fieldStop]
    refine (members_agree hstmts s).bind fun _ s' _ => ?_
    rw [encodeBlock, encodeStmt, bind_assoc]
    exact (Agree.refl _).bind fun _ _ _ => .pure trivial
  have hall : Agree (fun _ _ => True) (r.write nested v)
      (encodeBlock nested codec.encode ⟨v, []⟩) := by
    rw [hencode, List.append_assoc, List.append_assoc, encodeBlock_append, Record.write,
      ← bind_assoc]
    refine (checks_agree h.laidOut ⟨v, []⟩).bind fun _ s hs => ?_
    subst hs
    rw [List.singleton_append, encodeBlock, encodeStmt, pure_bind]
    exact hends _ rfl
  refine (Agree.eq ?_).symm
  rw [← bind_pure (r.write nested v)]
  exact hall.bind fun _ _ _ => .pure rfl

/-- A compiled document encodes an instance as its schema tells. -/
theorem encodeWithin_eq {d : Compiled} {s : Schema} (h : d.RealizesSchema s) (maxDepth : Nat)
    (levels : Nat) : encodeWithin d maxDepth levels = s.writeWithin maxDepth levels := by
  induction levels with
  | zero => rfl
  | succ levels ih =>
    funext name v
    rw [encodeWithin, Schema.writeWithin, ih]
    rcases h.find name with ⟨hd, hs⟩ | ⟨codec, r, hd, hs, hr⟩
    · rw [hd, hs]
    · rw [hd, hs]
      exact encode_record_eq hr _ v

/-- Encoding an instance writes what the schema tells, bytes and faults alike. -/
theorem encodeAs_eq_write {d : Compiled} {s : Schema} (h : d.RealizesSchema s)
    (c : WireConfig) (name : String) (v : StructValue) : encodeAs d c name v = s.write c name v := by
  rw [encodeAs, Schema.write, encodeWithin_eq h]

end Machine

end Thrift
