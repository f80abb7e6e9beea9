-- Running the statements that load a value. A frame changes only under the names that they bind,
-- which is why containers and keys outlive the statements that read what goes into them.
import Thrift.Proofs.DirectDecode
import Thrift.Proofs.Lookup
import Thrift.Proofs.Realized

namespace Thrift

/-! ## Frames -/

namespace Machine

namespace Frame

@[simp] theorem get?_bind_self (f : Frame) (x : String) (s : Slot) :
    (f.bind x s).get? x = some s := lookup_cons_self x s _

theorem get?_bind_ne (f : Frame) {x y : String} (h : y ≠ x) (s : Slot) :
    (f.bind x s).get? y = f.get? y :=
  (lookup_cons_ne h s _).trans (lookup_filter_ne h f.slots)

theorem get?_unbind_ne (f : Frame) {x y : String} (h : y ≠ x) :
    (f.unbind x).get? y = f.get? y := lookup_filter_ne h f.slots

end Frame

/-- A frame changes only under certain names, and no field is finished. -/
structure Changes (names : List String) (f f' : Frame) : Prop where
  staged_eq : f'.staged = f.staged
  get?_eq : ∀ y, y ∉ names → f'.get? y = f.get? y

theorem Changes.refl (names : List String) (f : Frame) : Changes names f f := ⟨rfl, fun _ _ => rfl⟩

theorem Changes.trans {names : List String} {f g h : Frame} (hf : Changes names f g)
    (hg : Changes names g h) : Changes names f h :=
  ⟨hg.staged_eq.trans hf.staged_eq, fun y hy => (hg.get?_eq y hy).trans (hf.get?_eq y hy)⟩

theorem Changes.mono {names names' : List String} {f g : Frame} (h : Changes names f g)
    (hsub : ∀ y ∈ names, y ∈ names') : Changes names' f g :=
  ⟨h.staged_eq, fun y hy => h.get?_eq y fun hn => hy (hsub y hn)⟩

theorem changes_bind {names : List String} (f : Frame) {x : String} (h : x ∈ names) (s : Slot) :
    Changes names f (f.bind x s) := by
  refine ⟨rfl, fun y hy => f.get?_bind_ne ?_ s⟩
  rintro rfl
  exact hy h

theorem changes_unbind {names : List String} (f : Frame) {x : String} (h : x ∈ names) :
    Changes names f (f.unbind x) := by
  refine ⟨rfl, fun y hy => f.get?_unbind_ne ?_⟩
  rintro rfl
  exact hy h

/-- The block went on with a value bound to the target, and changed nothing but certain names. -/
inductive Loaded (names : List String) (f : Frame) (x : String) (v : Value) : Flow → Prop
  | mk {f' : Frame} (value : f'.get? x = some (.value v)) (changes : Changes names f f') :
      Loaded names f x v (.next f')

/-! ## Blocks -/

theorem decodeBlock_append (s : Surroundings) (a b : List Stmt) (f : Frame) :
    decodeBlock s (a ++ b) f = decodeBlock s a f >>= fun
      | .next f => decodeBlock s b f
      | flow => pure flow := by
  induction a generalizing f with
  | nil => rfl
  | cons stmt a ih =>
    rw [List.cons_append, decodeBlock, decodeBlock, bind_assoc]
    congr 1
    funext flow
    cases flow with
    | next f => exact ih f
    | leave f => rfl
    | finished v => rfl

/-- Nothing is left to do behind the last statement. -/
theorem decodeBlock_singleton (s : Surroundings) (stmt : Stmt) (f : Frame) :
    decodeBlock s [stmt] f = decodeStmt s stmt f := by
  rw [decodeBlock]
  conv_rhs => rw [← bind_pure (decodeStmt s stmt f)]
  congr 1
  funext flow
  cases flow <;> rfl

theorem decodeBlock_readContainer (s : Surroundings) (kind : ContainerKind) {m x : String}
    (h : m ≠ x) (i : String) (body : List Stmt) (f : Frame) :
    decodeBlock s (Draft.readContainer kind m i x body) f =
      readSize s.config kind >>= fun n => rounds (decodeBlock s body) n
        ((f.bind m (.size n)).bind x (.value (emptyContainer kind))) := by
  have hsize : ∀ n, sizeOf ((f.bind m (.size n)).bind x (.value (emptyContainer kind))) m =
      pure n := by
    intro n
    simp only [sizeOf, Frame.get?_bind_ne _ h, Frame.get?_bind_self]
  unfold Draft.readContainer
  simp only [decodeBlock, decodeStmt, bind_assoc, pure_bind, hsize]
  congr 1
  funext n
  conv_rhs => rw [← bind_pure (rounds _ _ _)]
  congr 1
  funext flow
  cases flow <;> rfl

/-! ## Loading values -/

theorem takeValue_eq {f : Frame} {x : String} {v : Value} (h : f.get? x = some (.value v)) :
    takeValue f x = pure (v, f.unbind x) := by
  simp only [takeValue, h]

theorem insert_item {f : Frame} {x v : String} {container item grown : Value} (hxv : x ≠ v)
    (hv : f.get? v = some (.value item)) (hx : f.get? x = some (.value container))
    (hi : insertInto container none item = some grown) :
    insert f x none v = pure ((f.unbind v).bind x (.value grown)) := by
  have hx' : (f.unbind v).get? x = some (.value container) := by rw [f.get?_unbind_ne hxv, hx]
  simp only [insert, takeValue_eq hv, pure_bind, hx', hi]

theorem insert_entry {f : Frame} {x k v : String} {container key item grown : Value} (hxv : x ≠ v)
    (hxk : x ≠ k) (hkv : k ≠ v) (hv : f.get? v = some (.value item))
    (hk : f.get? k = some (.value key)) (hx : f.get? x = some (.value container))
    (hi : insertInto container (some key) item = some grown) :
    insert f x (some k) v = pure (((f.unbind v).unbind k).bind x (.value grown)) := by
  have hk' : (f.unbind v).get? k = some (.value key) := by rw [f.get?_unbind_ne hkv, hk]
  have hx' : ((f.unbind v).unbind k).get? x = some (.value container) := by
    rw [Frame.get?_unbind_ne _ hxk, f.get?_unbind_ne hxv, hx]
  simp only [insert, takeValue_eq hv, takeValue_eq hk', pure_bind, hx', hi]

open Reading (Agree)

/-- The statements load what `item` reads, and bind no other names than they say. -/
def LoadsAs (s : Surroundings) (item : Reading Value) (x : String) (code : List Stmt) : Prop :=
  ∀ f, Agree (Loaded (Stmt.boundIn code) f x) item (decodeBlock s code f)

/-- Rounds that load an element and insert it put the elements behind those of the container. -/
theorem rounds_agree {s : Surroundings} {item : Reading Value} {x v : String} {body : List Stmt}
    {kind : ContainerKind} {container : List Value → Value}
    (hc : ∀ items w, insertInto (container items) none w = some (container (items ++ [w])))
    (hx : x ∉ Stmt.boundIn body) (hv : v ∈ Stmt.boundIn body) (h : LoadsAs s item v body)
    (n : Nat) (f : Frame) (items : List Value) (hf : f.get? x = some (.value (container items))) :
    Agree (fun vs => Loaded (x :: Stmt.boundIn body) f x (container (items ++ vs)))
      (Form.readItems item n)
      (rounds (decodeBlock s (body ++ [.insert kind x none v])) n f) := by
  induction n generalizing f items with
  | zero =>
    rw [Form.readItems, rounds]
    refine .pure ⟨?_, .refl _ f⟩
    rw [hf, List.append_nil]
  | succ n ih =>
    rw [Form.readItems, rounds, decodeBlock_append, bind_assoc]
    refine (h f).bind fun w flow hw => ?_
    obtain ⟨hw, hchanges⟩ := hw
    rename_i f₁
    have hxv : x ≠ v := by
      rintro rfl
      exact hx hv
    have hins := insert_item hxv hw ((hchanges.get?_eq x hx).trans hf) (hc items w)
    simp only [decodeBlock_singleton, decodeStmt, hins, pure_bind]
    have hgo := ih ((f₁.unbind v).bind x (.value (container (items ++ [w])))) (items ++ [w])
      (Frame.get?_bind_self _ _ _)
    refine hgo.bind_pure_left fun vs flow hflow => ?_
    obtain ⟨hvs, hrest⟩ := hflow
    refine ⟨?_, ((hchanges.mono fun _ => List.mem_cons_of_mem x).trans ?_).trans hrest⟩
    · rw [hvs, List.append_assoc, List.singleton_append]
    · exact (changes_unbind f₁ (List.mem_cons_of_mem x hv)).trans
        (changes_bind _ List.mem_cons_self _)

/-- Rounds that load a key and a value put the entries behind those of the map. -/
theorem rounds_agree_entries {s : Surroundings} {key item : Reading Value} {x kn v : String}
    {kbody body : List Stmt} {kind : ContainerKind} (hx : x ∉ Stmt.boundIn (kbody ++ body))
    (hkn : kn ∉ Stmt.boundIn body) (hk : kn ∈ Stmt.boundIn kbody) (hv : v ∈ Stmt.boundIn body)
    (hkey : LoadsAs s key kn kbody) (h : LoadsAs s item v body) (n : Nat) (f : Frame)
    (entries : List (Value × Value)) (hf : f.get? x = some (.value (.map entries))) :
    Agree (fun es => Loaded (x :: Stmt.boundIn (kbody ++ body)) f x (.map (entries ++ es)))
      (Form.readEntries key item n)
      (rounds (decodeBlock s (kbody ++ body ++ [.insert kind x (some kn) v])) n f) := by
  induction n generalizing f entries with
  | zero =>
    rw [Form.readEntries, rounds]
    refine .pure ⟨?_, .refl _ f⟩
    rw [hf, List.append_nil]
  | succ n ih =>
    rw [Stmt.boundIn_append, List.mem_append, not_or] at hx
    have hkv : kn ≠ v := by
      rintro rfl
      exact hkn hv
    have hxv : x ≠ v := by
      rintro rfl
      exact hx.2 hv
    have hxk : x ≠ kn := by
      rintro rfl
      exact hx.1 hk
    have hin : ∀ y, y ∈ Stmt.boundIn kbody ∨ y ∈ Stmt.boundIn body →
        y ∈ x :: Stmt.boundIn (kbody ++ body) := by
      intro y hy
      rw [Stmt.boundIn_append]
      exact List.mem_cons_of_mem x (List.mem_append.mpr hy)
    rw [Form.readEntries, rounds, decodeBlock_append, decodeBlock_append, bind_assoc, bind_assoc]
    refine (hkey f).bind fun k flow hkl => ?_
    obtain ⟨hkl, hck⟩ := hkl
    rename_i f₁
    refine (h f₁).bind fun w flow hwl => ?_
    obtain ⟨hwl, hcw⟩ := hwl
    rename_i f₂
    have hins := insert_entry hxv hxk hkv hwl ((hcw.get?_eq kn hkn).trans hkl)
      ((hcw.get?_eq x hx.2).trans ((hck.get?_eq x hx.1).trans hf))
      (rfl : insertInto (.map entries) (some k) w = some (.map (entries ++ [(k, w)])))
    simp only [decodeBlock_singleton, decodeStmt, hins, pure_bind]
    have hgo := ih (((f₂.unbind v).unbind kn).bind x (.value (.map (entries ++ [(k, w)]))))
      (entries ++ [(k, w)]) (Frame.get?_bind_self _ _ _)
    refine hgo.bind_pure_left fun es flow hflow => ?_
    obtain ⟨hes, hrest⟩ := hflow
    refine ⟨?_, (((hck.mono fun y hy => hin y (.inl hy)).trans
      (hcw.mono fun y hy => hin y (.inr hy))).trans ?_).trans hrest⟩
    · rw [hes, List.append_assoc, List.singleton_append]
    · exact ((changes_unbind f₂ (hin v (.inr hv))).trans
        (changes_unbind _ (hin kn (.inl hk)))).trans (changes_bind _ List.mem_cons_self _)

/-- A frame in which a container was opened has changed under its two names only. -/
theorem changes_open {names : List String} (f : Frame) {m x : String} (hm : m ∈ names)
    (hx : x ∈ names) (n : Nat) (container : Value) :
    Changes names f ((f.bind m (.size n)).bind x (.value container)) :=
  (changes_bind f hm _).trans (changes_bind _ hx _)

/-- A list or a set is loaded by its header and its elements. -/
theorem sequence_agree {s : Surroundings} {item : Reading Value} {m i x v : String}
    {body : List Stmt} {kind : ContainerKind} (container : List Value → Value)
    {head : Reading Reading.ElementsHeader} (hm : m ≠ x)
    (hsize : readSize s.config kind = (·.size) <$> head)
    (hempty : emptyContainer kind = container [])
    (hc : ∀ items w, insertInto (container items) none w = some (container (items ++ [w])))
    (hx : x ∉ Stmt.boundIn body) (hv : v ∈ Stmt.boundIn body) (h : LoadsAs s item v body) :
    LoadsAs s (head >>= fun header => container <$> Form.readItems item header.size) x
      (Draft.readContainer kind m i x (body ++ [.insert kind x none v])) := by
  intro f
  rw [decodeBlock_readContainer s _ hm, hsize, map_eq_pure_bind, bind_assoc, hempty]
  refine (Agree.refl head).bind fun header _ hheader => ?_
  subst hheader
  rw [pure_bind, map_eq_pure_bind]
  refine (rounds_agree hc hx hv h header.size _ [] (Frame.get?_bind_self _ _ _)).bind_pure_left
    fun vs flow hflow => ?_
  obtain ⟨hvs, hrest⟩ := hflow
  refine ⟨hvs, (changes_open f ?_ ?_ _ _).trans (hrest.mono fun y hy => ?_)⟩
  · simp
  · simp
  · rw [Stmt.boundIn_readContainer, Stmt.boundIn_append, Stmt.boundIn_insert, List.append_nil]
    exact List.mem_cons_of_mem m hy

/-- A map is loaded by its header and its entries. -/
theorem entries_agree {s : Surroundings} {key item : Reading Value} {m i x kn v : String}
    {kbody body : List Stmt} {k e : WireType} (hm : m ≠ x)
    (hx : x ∉ Stmt.boundIn (kbody ++ body)) (hkn : kn ∉ Stmt.boundIn body)
    (hk : kn ∈ Stmt.boundIn kbody) (hv : v ∈ Stmt.boundIn body) (hkey : LoadsAs s key kn kbody)
    (h : LoadsAs s item v body) :
    LoadsAs s (Reading.mapHeader s.config >>= fun header =>
        Value.map <$> Form.readEntries key item header.size) x
      (Draft.readContainer (.map k e) m i x
        (kbody ++ body ++ [.insert (.map k e) x (some kn) v])) := by
  intro f
  rw [decodeBlock_readContainer s _ hm, readSize, map_eq_pure_bind, bind_assoc]
  refine (Agree.refl (Reading.mapHeader s.config)).bind fun header _ hheader => ?_
  subst hheader
  rw [pure_bind, map_eq_pure_bind]
  refine (rounds_agree_entries hx hkn hk hv hkey h header.size _ []
    (Frame.get?_bind_self _ _ _)).bind_pure_left fun es flow hflow => ?_
  obtain ⟨hes, hrest⟩ := hflow
  refine ⟨hes, (changes_open f ?_ ?_ _ _).trans (hrest.mono fun y hy => ?_)⟩
  · simp
  · simp
  · rw [Stmt.boundIn_readContainer, Stmt.boundIn_append, Stmt.boundIn_insert, List.append_nil]
    exact List.mem_cons_of_mem m hy

/-- A value that is read and bound to a name. -/
theorem read_agree {s : Surroundings} {codec : ValueCodec} {x : String} :
    LoadsAs s (readValue s codec) x [.read codec x] := by
  intro f
  rw [decodeBlock_singleton, decodeStmt, ← bind_pure (readValue s codec), bind_assoc]
  refine (Agree.refl (readValue s codec)).bind fun v _ hv => ?_
  subst hv
  rw [pure_bind]
  exact .pure ⟨Frame.get?_bind_self _ _ _, changes_bind f (by simp) _⟩

/-- Statements that load a form read what the form reads. -/
theorem loads_agree {s : Surroundings} {header x : String} {form : Form} {code : List Stmt}
    (h : Loads header form x code) (hform : form ≠ .void) :
    LoadsAs s (form.read s.config s.nested) x code := by
  induction h with
  | scalar kind x => exact read_agree
  | struct name x => exact read_agree
  | list he hm hx hl ih =>
    exact sequence_agree Value.list hm rfl rfl (fun _ _ => rfl) hx
      (hl.target_mem he) (ih he)
  | set he hm hx hl ih =>
    exact sequence_agree Value.set hm rfl rfl (fun _ _ => rfl) hx
      (hl.target_mem he) (ih he)
  | map hk he hm hkn hx hkey hl ihk ih =>
    exact entries_agree hm hx hkn (hkey.target_mem hk) (hl.target_mem he) (ihk hk) (ih he)
  | void => exact absurd rfl hform

end Machine

end Thrift
