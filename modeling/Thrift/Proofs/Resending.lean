-- What was decoded can be sent again. Its own bytes give it back, whatever follows them, unless
-- a default that construction filled in stands in the way.
import Thrift.Proofs.Received

namespace Thrift

/-! ## Sending again -/

/-- Where names are distinct, an instance that was decoded is encoded under the same limits and
comes back as it is. All that is asked of it is that it keeps to the limits and that it is
settled, which only defaults and required members of type void can undo. -/
theorem Machine.encodeAs_decode {d : Document} {c : Compiled} (hc : d.compile = .ok c)
    (hd : d.NamesDistinct) :
    ∃ s, d.schema = .ok s ∧
      ∀ (config : WireConfig) (name : String) (input rest : Bytes) (v : StructValue),
        decode c config name input = .ok v rest → s.Settled (.struct name) v.toValue →
        v.toValue.Within config → v.toValue.structDepth ≤ config.maxDepth →
          (encodeAs c config name v).outcome = .ok () ∧ ∀ more,
            decode c config name ((encodeAs c config name v).bytes ++ more) = .ok v more := by
  obtain ⟨s, hs, hrealizes⟩ := Compiled.realizes_of_compile hc
  refine ⟨s, hs, ?_⟩
  intro config name input rest v hdecode hsettled hwithin hdepth
  have hnames := Document.names_of_schema hs hd
  have hread := decode_eq_read hs hrealizes hd config name
  rw [hread] at hdecode ⊢
  obtain ⟨⟨inner, hinner, levels, hconforms⟩, hnormal⟩ :=
    s.readWithin_gives hnames config config.maxDepth name input v rest hdecode hsettled
  cases hinner
  rw [s.normalValue_struct] at hnormal
  have hown : s.normal name v = v := StructValue.toValue_injective hnormal
  -- what conforms at some depth conforms at its own, which is within the limit
  have hlevels : s.ConformsWithin config.maxDepth name v := hconforms.of_structDepth hdepth
  have hsucceeds := (encodeAs_succeeds_iff hrealizes).mpr hlevels
  have hback := Schema.readWithin_reads_sent hrealizes.ids_nodup hnames
    (hlevels.sends_of_own hnames hown) hwithin
  rw [hown] at hback
  rw [encodeAs_bytes hrealizes hsucceeds]
  exact ⟨hsucceeds, hback⟩

/-- A shelf of which only the label is sent. -/
def Document.roomyShelfBytes : Bytes := [0x0b, 0, 1, 0, 0, 0, 3, 0x74, 0x6f, 0x70, 0]

/-- What is read of it has a default. -/
def Document.roomyShelf : StructValue := ⟨"Shelf", [("label", .string "top"), ("room", .i32 7)]⟩

/-- No instance is inside of a value whose form names no struct. -/
theorem Schema.not_holds_of_structs {s : Schema} {form : Form} {w : Value} {name : String}
    {v : StructValue} (h : form.structs = []) : ¬ s.Holds form w name v := by
  intro hholds
  induction hholds with
  | here name v => cases h
  | listed _ _ ih => exact ih h
  | gathered _ _ ih => exact ih h
  | key _ _ ih => exact ih (List.append_eq_nil_iff.mp h).1
  | mapped _ _ ih => exact ih (List.append_eq_nil_iff.mp h).2
  | member => cases h

theorem Document.roomyShelf_settled :
    shelfSchema.Settled (.struct "Shelf") roomyShelf.toValue := by
  intro name u hu r hr
  generalize hvalue : roomyShelf.toValue = w at hu
  cases hu with
  | here =>
    cases hr
    cases StructValue.toValue_injective hvalue
    refine ⟨by decide, by simp, ?_⟩
    rintro m hm w ⟨-, hdefault, -⟩
    have hmem := List.mem_of_mem_filter hm
    simp only [List.mem_cons, List.not_mem_nil, or_false] at hmem
    rcases hmem with rfl | rfl | rfl <;> cases hdefault
    exact ⟨trivial, rfl⟩
  | member houter hm _ hinner =>
    cases houter
    have hmem := List.mem_of_mem_filter hm
    simp only [List.mem_cons, List.not_mem_nil, or_false] at hmem
    refine absurd hinner (Schema.not_holds_of_structs ?_)
    rcases hmem with rfl | rfl | rfl <;> rfl

theorem Machine.encodeAs_decode_shelf : ∃ c, Document.shelf.compile = .ok c ∧
    Document.shelf.NamesDistinct ∧
    decode c {} "Shelf" Document.roomyShelfBytes = .ok Document.roomyShelf [] ∧
    Document.shelfSchema.Settled (.struct "Shelf") Document.roomyShelf.toValue ∧
    (encodeAs c {} "Shelf" Document.roomyShelf).outcome = .ok () ∧ ∀ more,
      decode c {} "Shelf" ((encodeAs c {} "Shelf" Document.roomyShelf).bytes ++ more) =
        .ok Document.roomyShelf more := by
  have hwithin : Document.roomyShelf.toValue.Within {} := by
    simp only [Document.roomyShelf, StructValue.toValue, Value.Within, Value.FieldsWithin]
    decide
  obtain ⟨s, hs, h⟩ := encodeAs_decode (d := Document.shelf) rfl Document.shelf_namesDistinct
  cases Document.schema_shelf.symm.trans hs
  refine ⟨_, rfl, Document.shelf_namesDistinct, rfl, Document.roomyShelf_settled, ?_⟩
  exact h {} "Shelf" Document.roomyShelfBytes [] Document.roomyShelf rfl
    Document.roomyShelf_settled hwithin (by decide)

/-! ## Defaults that stand in the way -/

namespace Document

/-- A default field of a type, with the literal that it has where it is not set. -/
def defaulted (name : String) (id : Int16) (type : FieldType) (literal : Option Literal) : Field :=
  ⟨name, some id, type, .default, literal, none⟩

/-- A choice with a default on its second alternative. -/
def choice : Document := ⟨[.structLike .union ⟨"Choice",
  [defaulted "left" 1 .i32 none, defaulted "right" 2 .i32 (some (.int 5))]⟩]⟩

/-- A box whose content is by default an item with nothing set. -/
def box (size : Field) : Document := ⟨[.structLike .struct ⟨"Item", [size]⟩,
  .structLike .struct ⟨"Box", [defaulted "item" 1 (.identifier "Item") (some (.map []))]⟩]⟩

/-- The box as it is read from no field. -/
def boxValue : StructValue := ⟨"Box", [("item", .struct "Item" [])]⟩

/-- A struct that requires what has no values. -/
def hollow : Document := ⟨[.structLike .struct ⟨"Hollow",
  [⟨"nothing", some 1, .void, .required, none, none⟩]⟩]⟩

/-- A struct with a name of two letters. -/
def named : Document := ⟨[.structLike .struct ⟨"Named",
  [defaulted "name" 1 .string (some (.string "ab"))]⟩]⟩

/-- On bytes that the document decodes as an instance, the instance cannot be encoded. -/
def Refuses (d : Document) (config : WireConfig) (name : String) (input : Bytes) (v : StructValue)
    (fault : Fault) : Prop :=
  d.NamesDistinct ∧ ∃ c, d.compile = .ok c ∧ Machine.decode c config name input = .ok v [] ∧
    (Machine.encodeAs c config name v).outcome = .error fault

/-- On bytes that the document decodes as an instance, the instance is encoded, but its bytes are
not decoded as the instance. -/
def Alters (d : Document) (config : WireConfig) (name : String) (input : Bytes) (v : StructValue)
    (again : EStateM.Result Fault Bytes StructValue) : Prop :=
  d.NamesDistinct ∧ ∃ c, d.compile = .ok c ∧ Machine.decode c config name input = .ok v [] ∧
    (Machine.encodeAs c config name v).outcome = .ok () ∧
    Machine.decode c config name (Machine.encodeAs c config name v).bytes = again

end Document

/-- What was decoded is not always sent again: a default joins the alternative that was found; a
default lacks what is required or is nested too deep; what is required has no values; and what
comes back is filled in once more, or is too long to be read. -/
theorem Machine.decode_unsent :
    Document.choice.Refuses {} "Choice" [0x08, 0, 1, 0, 0, 0, 1, 0]
      ⟨"Choice", [("left", .i32 1), ("right", .i32 5)]⟩ (.protocol (.fieldCount "Choice" 2)) ∧
    (Document.box ⟨"size", some 1, .i32, .required, none, none⟩).Refuses {} "Box" [0]
      Document.boxValue (.protocol (.unsetField "size")) ∧
    (Document.box (Document.defaulted "size" 1 .i32 none)).Refuses { maxDepth := 1 } "Box" [0]
      Document.boxValue (.protocol (.structDepth "Item" 1)) ∧
    Document.hollow.Refuses {} "Hollow" [0] ⟨"Hollow", []⟩ (.protocol (.unsetField "nothing")) ∧
    (Document.box (Document.defaulted "size" 1 .i32 (some (.int 5)))).Alters {} "Box" [0]
      Document.boxValue (.ok ⟨"Box", [("item", .struct "Item" [("size", .i32 5)])]⟩ []) ∧
    Document.named.Alters { maxStringSize := 1 } "Named" [0] ⟨"Named", [("name", .string "ab")]⟩
      (.error (.protocol (.sizeLimit .string 2 1)) [0x61, 0x62, 0]) := by
  refine ⟨⟨?_, _, rfl, rfl, rfl⟩, ⟨?_, _, rfl, rfl, rfl⟩, ⟨?_, _, rfl, rfl, rfl⟩,
    ⟨?_, _, rfl, rfl, rfl⟩, ⟨?_, _, rfl, rfl, rfl, rfl⟩, ⟨?_, _, rfl, rfl, rfl, rfl⟩⟩
  all_goals
    unfold Document.NamesDistinct
    decide

end Thrift
