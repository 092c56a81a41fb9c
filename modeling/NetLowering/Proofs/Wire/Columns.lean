import Mathlib.Data.List.Induction
import Mathlib.Logic.Function.Basic
import NetLowering.Proofs.Wire.Contents

/-!
# What messages keep

The fields of a message are sorted by their tags into columns of payloads.  What a
message keeps of a column does not depend on the other ones, so the fields may come
in any order that leaves the columns as they are.  `Slot.concat_iff` says for every
place of a message how one more payload changes what is kept there, and
`Collects.read_eq_some_iff` that a message is read from bytes which spell fields with
the columns it is made of.
-/

namespace NetLowering.Wire

/-- The payloads under every tag, in their order. -/
abbrev Columns := Nat → List Payload

def columns (fields : List Field) : Columns := fun tag =>
  (fields.filter (·.tag = tag)).map (·.payload)

/-- The columns with one more payload under a tag. -/
def Columns.add (columns : Columns) (tag : Nat) (payload : Payload) : Columns :=
  Function.update columns tag (columns tag ++ [payload])

theorem columns_concat (fields : List Field) (field : Field) :
    columns (fields ++ [field]) = (columns fields).add field.tag field.payload := by
  funext tag
  by_cases htag : tag = field.tag
  · subst htag
    simp [columns, Columns.add]
  · have hother : field.tag ≠ tag := Ne.symm htag
    simp [columns, Columns.add, htag, hother]

/-! ## What is kept of a column -/

section Kept

variable {α : Type} {Carries : Payload → α → Prop} {payload : Payload} {payloads : List Payload}

/-- The last value, if there is any; the ones before it are overwritten. -/
def Last (Carries : Payload → α → Prop) (payloads : List Payload) (kept : Option α) : Prop :=
  ∃ values, List.Forall₂ Carries payloads values ∧ values.getLast? = kept

/-- All values in their order. -/
def All (Carries : Payload → α → Prop) (payloads : List Payload) (kept : List α) : Prop :=
  List.Forall₂ Carries payloads kept

/-- The values of all payloads, each of which may carry any number of them. -/
def Joined (Carries : Payload → List α → Prop) (payloads : List Payload) (kept : List α) : Prop :=
  ∃ runs, List.Forall₂ Carries payloads runs ∧ runs.flatten = kept

@[simp] theorem last_nil {kept : Option α} : Last Carries [] kept ↔ kept = none := by
  simp [Last, eq_comm]

@[simp] theorem all_nil {kept : List α} : All Carries [] kept ↔ kept = [] := by
  simp [All]

@[simp] theorem joined_nil {Carries : Payload → List α → Prop} {kept : List α} :
    Joined Carries [] kept ↔ kept = [] := by
  simp [Joined, eq_comm]

theorem forall₂_concat_iff {values : List α} :
    List.Forall₂ Carries (payloads ++ [payload]) values ↔
      ∃ before value, List.Forall₂ Carries payloads before ∧ Carries payload value ∧
        before ++ [value] = values := by
  induction payloads generalizing values with
  | nil => simp [List.forall₂_cons_left_iff, eq_comm]
  | cons first rest ih =>
      simp only [List.cons_append, List.forall₂_cons_left_iff, ih]
      constructor
      · rintro ⟨head, _, hhead, ⟨before, value, hbefore, hvalue, rfl⟩, rfl⟩
        exact ⟨head :: before, value, ⟨head, before, hhead, hbefore, rfl⟩, hvalue, rfl⟩
      · rintro ⟨_, value, ⟨head, before, hhead, hbefore, rfl⟩, hvalue, rfl⟩
        exact ⟨head, _, hhead, ⟨before, value, hbefore, hvalue, rfl⟩, rfl⟩

end Kept

/-- One more payload adds its value to what is kept of those before it. -/
def Adds {α β : Type} (Holds : List Payload → β → Prop) (Carries : Payload → α → Prop)
    (add : β → α → β) : Prop :=
  ∀ payloads payload kept, Holds (payloads ++ [payload]) kept ↔
    ∃ before value, Holds payloads before ∧ Carries payload value ∧ add before value = kept

theorem adds_last {α : Type} (Carries : Payload → α → Prop) :
    Adds (Last Carries) Carries fun _ value => some value := by
  intro payloads payload kept
  simp only [Last, forall₂_concat_iff]
  constructor
  · rintro ⟨_, ⟨before, value, hbefore, hvalue, rfl⟩, rfl⟩
    exact ⟨_, value, ⟨before, hbefore, rfl⟩, hvalue, List.getLast?_concat.symm⟩
  · rintro ⟨_, value, ⟨before, hbefore, -⟩, hvalue, rfl⟩
    exact ⟨_, ⟨before, value, hbefore, hvalue, rfl⟩, List.getLast?_concat⟩

theorem adds_all {α : Type} (Carries : Payload → α → Prop) :
    Adds (All Carries) Carries fun before value => before ++ [value] :=
  fun _ _ _ => forall₂_concat_iff

theorem adds_joined {α : Type} (Carries : Payload → List α → Prop) :
    Adds (Joined Carries) Carries fun before run => before ++ run := by
  intro payloads payload kept
  simp only [Joined, forall₂_concat_iff]
  constructor
  · rintro ⟨_, ⟨before, run, hbefore, hrun, rfl⟩, rfl⟩
    exact ⟨_, run, ⟨before, hbefore, rfl⟩, hrun, by simp⟩
  · rintro ⟨_, run, ⟨before, hbefore, rfl⟩, hrun, rfl⟩
    exact ⟨_, ⟨before, run, hbefore, hrun, rfl⟩, by simp⟩

/-! ## Places of a message -/

section Slots

variable {M K α : Type} {Made : M → Columns → Prop} {tag : Nat} {Holds : List Payload → K → Prop}
  {get : M → K} {set : M → K → M}

/-- A place of a message holds what is kept of its own column and of no other. -/
structure Slot (Made : M → Columns → Prop) (tag : Nat) (Holds : List Payload → K → Prop)
    (get : M → K) (set : M → K → M) : Prop where
  holds : ∀ {message columns}, Made message columns → Holds (columns tag) (get message)
  replace : ∀ {message columns payloads kept}, Made message columns → Holds payloads kept →
    Made (set message kept) (Function.update columns tag payloads)
  get_set : ∀ message kept, get (set message kept) = kept := by intros; rfl
  set_get : ∀ message, set message (get message) = message := by intros; rfl
  set_set : ∀ message first second, set (set message first) second = set message second := by
    intros; rfl

theorem Slot.concat_iff (hslot : Slot Made tag Holds get set) {Carries : Payload → α → Prop}
    {add : K → α → K} (hadds : Adds Holds Carries add) {payload : Payload} {read : Option α}
    (hread : ∀ {value}, read = some value ↔ Carries payload value) {columns : Columns} {next : M} :
    Made next (columns.add tag payload) ↔
      ∃ message, Made message columns ∧
        read.map (fun value => set message (add (get message) value)) = some next := by
  simp only [Option.map_eq_some_iff, hread]
  constructor
  · intro hnext
    have hheld := hslot.holds hnext
    rw [Columns.add, Function.update_self, hadds] at hheld
    obtain ⟨before, value, hbefore, hvalue, hkept⟩ := hheld
    -- Without the payload the place held what is kept of the payloads before it.
    refine ⟨set next before, ?_, value, hvalue, ?_⟩
    · have hmade := hslot.replace hnext hbefore
      rwa [Columns.add, Function.update_idem, Function.update_eq_self] at hmade
    · rw [hslot.get_set, hslot.set_set, hkept, hslot.set_get]
  · rintro ⟨message, hmessage, value, hvalue, rfl⟩
    exact hslot.replace hmessage
      ((hadds _ _ _).mpr ⟨get message, value, hslot.holds hmessage, hvalue, rfl⟩)

/-- What is made of the columns depends on the ones with known tags only. -/
def Knows (Made : M → Columns → Prop) (known : List Nat) : Prop :=
  ∀ {message : M} {columns others : Columns}, (∀ tag ∈ known, others tag = columns tag) →
    Made message columns → Made message others

theorem Knows.concat_iff {known : List Nat} (hknows : Knows Made known) (htag : tag ∉ known)
    {columns : Columns} {payload : Payload} {next : M} :
    Made next (columns.add tag payload) ↔
      ∃ message, Made message columns ∧ some message = some next := by
  have hsame (other : Nat) (hother : other ∈ known) :
      columns.add tag payload other = columns other :=
    Function.update_of_ne (ne_of_mem_of_not_mem hother htag) _ _
  simp only [Option.some.injEq, exists_eq_right]
  exact ⟨hknows fun other hother => (hsame other hother).symm, hknows hsame⟩

end Slots

/-! ## Runs of fields -/

section Runs

variable {M : Type} {Made : M → Columns → Prop} {collect : M → Field → Option M} {start : M}

/-- A message starts without fields, and each field adds its payload to what the message is made
of. -/
structure Collects (Made : M → Columns → Prop) (collect : M → Field → Option M) (start : M) :
    Prop where
  start : ∀ {message}, Made message (fun _ => []) ↔ message = start
  step : ∀ {columns : Columns} {field : Field} {next : M}, field.payload.Fits →
    (Made next (columns.add field.tag field.payload) ↔
      ∃ message, Made message columns ∧ collect message field = some next)

/-- The bytes spell fields of whose columns the message is made. -/
def SpelledBy (Made : M → Columns → Prop) (budget : Nat) (message : M) (bytes : Bytes) : Prop :=
  ∃ fields, Spells budget fields bytes ∧ Made message (columns fields)

theorem Collects.foldlM_eq_some_iff (hcollects : Collects Made collect start) {fields : List Field}
    (hfits : ∀ field ∈ fields, field.payload.Fits) {message : M} :
    fields.foldlM collect start = some message ↔ Made message (columns fields) := by
  -- From the end, since a column grows by its last payload.
  induction fields using List.reverseRecOn generalizing message with
  | nil => exact Option.some_inj.trans (eq_comm.trans hcollects.start.symm)
  | append_singleton fields field ih =>
      have hbefore (earlier : M) : fields.foldlM collect start = some earlier ↔
          Made earlier (columns fields) :=
        ih fun other hother => hfits other (List.mem_append_left _ hother)
      rw [columns_concat, hcollects.step (hfits field (by simp)), List.foldlM_append]
      simp [Option.bind_eq_some_iff, hbefore]

/-- A message is read from its spellings and from nothing else. -/
theorem Collects.read_eq_some_iff (hcollects : Collects Made collect start) {budget : Nat}
    {bytes : Bytes} {message : M} :
    ((fields budget bytes).bind fun found => found.foldlM collect start) = some message ↔
      SpelledBy Made budget message bytes := by
  simp only [Option.bind_eq_some_iff, fields_eq_some_iff]
  constructor
  · rintro ⟨found, hspells, hread⟩
    exact ⟨found, hspells, (hcollects.foldlM_eq_some_iff hspells.fits).mp hread⟩
  · rintro ⟨found, hspells, hmade⟩
    exact ⟨found, hspells, (hcollects.foldlM_eq_some_iff hspells.fits).mpr hmade⟩

end Runs

/-! ## Messages in messages -/

section Nested

variable {M N : Type} {Made : M → Columns → Prop} {Spelled : N → Bytes → Prop} {tag : Nat}
  {get : M → List N} {set : M → List N → M}

/-- The payload spells a message. -/
def Payload.CarriesMessage (Spelled : N → Bytes → Prop) (payload : Payload) (message : N) : Prop :=
  ∃ content, payload.CarriesBytes content ∧ Spelled message content

theorem Slot.concat_message_iff
    (hslot : Slot Made tag (All (Payload.CarriesMessage Spelled)) get set)
    {read : Bytes → Option N}
    (hread : ∀ {bytes message}, read bytes = some message ↔ Spelled message bytes)
    {columns : Columns} {payload : Payload} {next : M} :
    Made next (columns.add tag payload) ↔
      ∃ message, Made message columns ∧
        (do
          let inner ← read (← payload.bytes?)
          return set message (get message ++ [inner])) = some next := by
  have hcarries {inner : N} : payload.bytes?.bind read = some inner ↔
      payload.CarriesMessage Spelled inner := by
    simp only [Option.bind_eq_some_iff, Payload.bytes?_eq_some_iff, hread, Payload.CarriesMessage]
  rw [hslot.concat_iff (adds_all _) hcarries]
  simp [Option.map_eq_some_iff, Option.bind_eq_some_iff]

end Nested

end NetLowering.Wire
