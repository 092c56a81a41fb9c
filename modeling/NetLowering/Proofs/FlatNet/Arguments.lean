import NetLowering.Proofs.FlatNet.Reordered
import NetLowering.Proofs.FlatNet.Retagged

/-!
# The arguments of flat operators

A flat operator has an argument for every name that its operator states, and the last
argument of the name counts.  An order is read as text.  If any operator of the net
states that it is channel-first, every other value of four elements has its axes
permuted, once and whatever its type is, except for `pads` (`join_arguments`).
-/

namespace NetLowering

open Checked

/-! ## Values -/

/-- The content has a character for each byte; what is not bytes has none. -/
inductive Buffer.ReadsAs : Buffer → String → Prop
  | bytes {bytes : Array UInt8} {content : String}
      (chars : content.toList.map Char.toNat = bytes.toList.map UInt8.toNat) :
      ReadsAs (.uint8 bytes) content
  | other {buffer : Buffer} (unread : buffer.elemType ≠ .uint8) : ReadsAs buffer ""

/-- Four elements `n, c, h, w` in the order `n, h, w, c`, as what they were. -/
structure Buffer.Permutes (buffer relaid : Buffer) : Prop where
  elemType : relaid.elemType = buffer.elemType
  size : relaid.size = 4
  elements : [0, 1, 2, 3].map relaid.element? = [0, 2, 3, 1].map buffer.element?

/-- What a flat operator has for an argument of this name that states the buffer. -/
inductive Buffer.Flattens (channelFirst : Prop) (name : String) (buffer : Buffer) : Value → Prop
  | order {content : String} (named : name = "order") (reads : buffer.ReadsAs content) :
      Flattens channelFirst name buffer (.text content)
  | permuted {relaid : Buffer} (named : name ≠ "order")
      (axes : channelFirst ∧ name ≠ "pads" ∧ buffer.size = 4) (permutes : buffer.Permutes relaid) :
      Flattens channelFirst name buffer (.numbers relaid)
  | kept (named : name ≠ "order") (plain : ¬(channelFirst ∧ name ≠ "pads" ∧ buffer.size = 4)) :
      Flattens channelFirst name buffer (.numbers buffer)

namespace Buffer

variable {buffer : Buffer}

theorem readsAs_latin? (buffer : Buffer) :
    buffer.ReadsAs ((Value.numbers buffer).latin?.getD "") := by
  cases buffer with
  | uint8 bytes =>
      refine .bytes ?_
      rw [Value.latin?, Option.getD_some, String.toList_ofList, List.map_map]
      refine List.map_congr_left fun byte _ => ?_
      have hbyte := byte.toNat_lt
      rw [Function.comp_apply, Char.ofNat, dif_pos (.inl (by omega))]
      rfl
  | float32 | int32 | int8 => exact .other (by simp [elemType])

theorem permutes_channelsLast (hsize : buffer.size = 4) :
    ∃ relaid, (Value.numbers buffer).channelsLast = .numbers relaid ∧ buffer.Permutes relaid := by
  have hfour {α : Type} {values : Array α} (hvalues : values.size = 4) :
      ∃ n c h w, values = #[n, c, h, w] := by
    obtain ⟨n, c, h, w, helements⟩ := List.length_eq_four.mp (values.length_toList.trans hvalues)
    exact ⟨n, c, h, w, congrArg Array.mk helements⟩
  cases buffer with
  | float32 values =>
      obtain ⟨n, c, h, w, rfl⟩ := hfour hsize
      exact ⟨.float32 #[n, h, w, c], rfl, rfl, rfl, rfl⟩
  | int32 values =>
      obtain ⟨n, c, h, w, rfl⟩ := hfour hsize
      exact ⟨.int32 #[n, h, w, c], rfl, rfl, rfl, rfl⟩
  | uint8 values =>
      obtain ⟨n, c, h, w, rfl⟩ := hfour hsize
      exact ⟨.uint8 #[n, h, w, c], rfl, rfl, rfl, rfl⟩
  | int8 values =>
      obtain ⟨n, c, h, w, rfl⟩ := hfour hsize
      exact ⟨.int8 #[n, h, w, c], rfl, rfl, rfl, rfl⟩

theorem flattens_restated {layout : Layout} {name : String} (hname : name ≠ "order") :
    buffer.Flattens (layout = .channelFirst) name (layout.restated name (.numbers buffer)) := by
  rw [Layout.restated]
  by_cases hsize : buffer.size = 4
  · split
    · rename_i hlayout
      obtain ⟨relaid, hrelaid, hpermutes⟩ := permutes_channelsLast hsize
      rw [hrelaid]
      exact .permuted hname ⟨hlayout.1, hlayout.2, hsize⟩ hpermutes
    · rename_i hlayout
      exact .kept hname fun haxes => hlayout ⟨haxes.1, haxes.2.1⟩
  · have hvalue : (Value.numbers buffer).size ≠ 4 := hsize
    rw [Value.channelsLast_of_size hvalue, ite_self]
    exact .kept hname fun haxes => hsize haxes.2.2

end Buffer

/-! ## Arguments -/

/-- The table has what these arguments state and nothing else, each name as its last argument
states it. -/
structure FlatOp.Keeps (channelFirst : Prop) (arguments : List Argument)
    (table : Table String Value) : Prop where
  names : ∀ name, name ∈ table.keys ↔ name ∈ arguments.map Argument.label
  last : ∀ before argument after, arguments = before ++ argument :: after →
    argument.label ∉ after.map Argument.label →
    ∃ buffer value, argument.value = .ok (.numbers buffer) ∧
      table.find? argument.label = some value ∧
      buffer.Flattens channelFirst argument.label value

namespace FlatOp

variable {layout : Layout} {argument : Argument} {value : Value}

theorem flattens_of_argumentValue (hvalue : argumentValue layout argument = .ok value) :
    ∃ buffer, argument.value = .ok (.numbers buffer) ∧
      buffer.Flattens (layout = .channelFirst) argument.label value := by
  by_cases hlabel : argument.label = "order"
  · rw [argumentValue, bind_eq_ok_iff] at hvalue
    obtain ⟨stated, hstated, hvalue⟩ := hvalue
    rw [if_pos hlabel, pure_eq_ok_iff] at hvalue
    obtain ⟨buffer, rfl⟩ := Argument.value_eq_ok hstated
    exact ⟨buffer, hstated, hvalue ▸ .order hlabel buffer.readsAs_latin?⟩
  · rw [argumentValue_of_label_ne hlabel, map_eq_ok_iff] at hvalue
    obtain ⟨stated, hstated, rfl⟩ := hvalue
    obtain ⟨buffer, rfl⟩ := Argument.value_eq_ok hstated
    exact ⟨buffer, hstated, Buffer.flattens_restated hlabel⟩

/-- One more argument takes the place of those before it that have its name. -/
theorem keeps_insert {arguments : List Argument} {table : Table String Value}
    (hkeeps : Keeps (layout = .channelFirst) arguments table)
    (hvalue : argumentValue layout argument = .ok value) :
    Keeps (layout = .channelFirst) (arguments ++ [argument])
      (table.insert argument.label value) := by
  constructor
  · intro name
    have hnames := hkeeps.names name
    simp only [Table.mem_keys_iff, Table.find?_insert] at hnames ⊢
    rw [List.map_append, List.mem_append, ← hnames]
    by_cases hname : name = argument.label <;> simp [hname]
  · intro before last after hsplit hlast
    -- The last of its name is the new argument, or the new one has another name.
    rcases concat_eq_moment_iff.mp hsplit with ⟨-, rfl, -⟩ | ⟨front, rfl, hfront⟩
    · obtain ⟨buffer, hbuffer, hflattens⟩ := flattens_of_argumentValue hvalue
      exact ⟨buffer, value, hbuffer, by rw [Table.find?_insert, if_pos rfl], hflattens⟩
    · rw [List.map_append, List.mem_append, not_or] at hlast
      obtain ⟨buffer, kept, hbuffer, hkept, hflattens⟩ :=
        hkeeps.last before last front hfront hlast.1
      refine ⟨buffer, kept, hbuffer, ?_, hflattens⟩
      rw [Table.find?_insert, if_neg (by simpa using hlast.2)]
      exact hkept

theorem keeps_argumentTable {arguments : List Argument} {table : Table String Value}
    (htable : argumentTable layout arguments = .ok table) :
    Keeps (layout = .channelFirst) arguments table := by
  refine foldlM_follows (Keeps (layout = .channelFirst)) ?_ ?_ htable
  · intro done table argument next hkeeps hstep
    obtain ⟨value, hvalue, hnext⟩ := bind_eq_ok_iff.mp hstep
    rw [pure_eq_ok_iff] at hnext
    exact hnext ▸ keeps_insert hkeeps hvalue
  · constructor
    · exact fun name => Iff.rfl
    · intro before argument after hsplit
      simp at hsplit

end FlatOp

namespace FlatNet

/-- The flat operators are those of the predict net, in their order, and each has the arguments of
its own.  Whichever operator says that the net is channel-first, it says so for all of them. -/
theorem join_arguments {options : LoadOptions} {predict init : Net} {net : FlatNet}
    (hjoin : join options predict init = .ok net) :
    List.Forall₂ (fun operator flat =>
      FlatOp.Keeps (predict.StatesOrder "NCHW") operator.arguments flat.arguments)
      predict.operators net.operators := by
  obtain ⟨-, hlayout, -, hoperators⟩ := join_eq_ok_iff.mp hjoin
  rw [← propext (Net.layout_channelFirst_iff hlayout)]
  refine (mapM_eq_ok_iff.mp hoperators).imp fun operator flat hread => ?_
  obtain ⟨table, htable, hflat⟩ := bind_eq_ok_iff.mp hread
  rw [pure_eq_ok_iff] at hflat
  exact hflat ▸ FlatOp.keeps_argumentTable htable

/-- Its order is stated after the arguments that it permutes, and more than once. -/
def lateOrder : Net where
  operators := [
    { arguments := [{ name := some "shape", ints := [1, 2, 3] },
        { name := some "shape", floats := [.zero, .one, .zero, .zero] },
        { name := some "pads", ints := [1, 2, 3, 4] },
        { name := some "order", ints := [1, 2, 3, 4] }] },
    { arguments := [{ name := some "order", bytes := some [0x4e, 0x43, 0x48, 0x57] },
        { name := some "order", bytes := some [0x4e, 0x43, 0x48, 0x57] },
        { name := some "tag", bytes := some [1, 2, 3, 4] }] }]

theorem join_arguments_lateOrder :
    ∃ net, join {} lateOrder {} = .ok net ∧
      List.Forall₂ (fun operator flat =>
        FlatOp.Keeps (lateOrder.StatesOrder "NCHW") operator.arguments flat.arguments)
        lateOrder.operators net.operators ∧
      net.operators.map (fun flat => flat.arguments.entries) =
        [[("order", .text ""), ("pads", .numbers (.int32 #[1, 2, 3, 4])),
            ("shape", .numbers (.float32 #[.zero, .zero, .zero, .one]))],
          [("order", .text "NCHW"), ("tag", .numbers (.uint8 #[1, 3, 4, 2]))]] := by
  have hread : (fun net : FlatNet => net.operators.map fun flat => flat.arguments.entries) <$>
      join {} lateOrder {} =
        .ok [[("order", .text ""), ("pads", .numbers (.int32 #[1, 2, 3, 4])),
            ("shape", .numbers (.float32 #[.zero, .zero, .zero, .one]))],
          [("order", .text "NCHW"), ("tag", .numbers (.uint8 #[1, 3, 4, 2]))]] := by
    decide +kernel
  obtain ⟨net, hjoin, hentries⟩ := map_eq_ok_iff.mp hread
  exact ⟨net, hjoin, join_arguments hjoin, hentries⟩

end FlatNet

end NetLowering
