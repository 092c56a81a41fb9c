import Mathlib.Algebra.Group.Nat.Defs
import NetLowering.Wire.Field

/-!
# How fields are spelled

Which bytes stand for a number, for a key, for a payload and for a run of fields is
said here apart from the functions that read them.  A number may be padded with
groups of zeros, and a field that is skipped may be a group with fields of its own,
as deep as the budget allows.  `fields_eq_some_iff` says that a message is read as
the fields that it spells and that nothing else is read.
-/

namespace NetLowering.Wire

variable {α : Type}

/-- The reader takes one spelling off the front of the bytes, and it takes nothing else. -/
def Reads (read : Bytes → Option (α × Bytes)) (Spells : α → Bytes → Prop) : Prop :=
  ∀ bytes item rest,
    read bytes = some (item, rest) ↔ ∃ first, Spells item first ∧ bytes = first ++ rest

theorem Reads.read_append {read : Bytes → Option (α × Bytes)} {Spells : α → Bytes → Prop}
    (hreads : Reads read Spells) {item : α} {first : Bytes} (hspells : Spells item first)
    (rest : Bytes) : read (first ++ rest) = some (item, rest) :=
  (hreads _ _ _).mpr ⟨first, hspells, rfl⟩

/-! ## Varints -/

/-- Groups of seven bits, the lowest first; every byte but the last has its top bit set. -/
inductive Groups : Nat → Bytes → Prop where
  | last (byte : UInt8) (final : byte.toNat < 128) : Groups byte.toNat [byte]
  | more (byte : UInt8) {high : Nat} {rest : Bytes} (marked : 128 ≤ byte.toNat)
      (above : Groups high rest) : Groups (byte.toNat - 128 + 128 * high) (byte :: rest)

/-- A number of 64 bits in at most ten groups. -/
structure SpellsVarint (number : Nat) (bytes : Bytes) : Prop where
  groups : Groups number bytes
  length : bytes.length ≤ 10
  fits : number < 2 ^ 64

theorem varintWithin_of_groups {room number : Nat} {first : Bytes} (hgroups : Groups number first)
    (hlength : first.length ≤ room + 1) (hfits : number < 2 * 128 ^ room) (rest : Bytes) :
    varintWithin (room + 1) (first ++ rest) = some (number, rest) := by
  induction hgroups generalizing room with
  | last byte hfinal =>
      -- In the last byte that there is room for, the number leaves one bit.
      rw [List.singleton_append, varintWithin, if_neg, if_pos hfinal]
      rintro ⟨rfl, hexcess⟩
      omega
  | @more byte high above hmarked habove ih =>
      cases room with
      | zero => cases habove <;> simp at hlength
      | succ room =>
          have hhigh : high < 2 * 128 ^ room := by
            rw [Nat.pow_succ] at hfits
            omega
          have hrest := ih (Nat.le_of_succ_le_succ hlength) hhigh
          rw [List.cons_append, varintWithin, if_neg (by simp), if_neg (Nat.not_lt.mpr hmarked),
            hrest]

theorem groups_of_varintWithin {room number : Nat} {bytes rest : Bytes}
    (hread : varintWithin (room + 1) bytes = some (number, rest)) :
    ∃ first, Groups number first ∧ first.length ≤ room + 1 ∧ number < 2 * 128 ^ room ∧
      bytes = first ++ rest := by
  induction room generalizing bytes number with
  | zero =>
      cases bytes with
      | nil => simp [varintWithin] at hread
      | cons byte others =>
          by_cases hsmall : 1 < byte.toNat
          · simp [varintWithin, hsmall] at hread
          · have hfinal : byte.toNat < 128 := by omega
            rw [varintWithin, if_neg (by simp [hsmall]), if_pos hfinal] at hread
            cases hread
            exact ⟨[byte], .last byte hfinal, Nat.le_refl 1, by omega, rfl⟩
  | succ room ih =>
      cases bytes with
      | nil => simp [varintWithin] at hread
      | cons byte others =>
          rw [varintWithin, if_neg (by simp)] at hread
          by_cases hfinal : byte.toNat < 128
          · rw [if_pos hfinal] at hread
            cases hread
            have hpositive : 0 < 128 ^ room := Nat.pow_pos (by decide)
            refine ⟨[byte], .last byte hfinal, by simp, ?_, rfl⟩
            rw [Nat.pow_succ]
            omega
          · rw [if_neg hfinal] at hread
            cases hhigh : varintWithin (room + 1) others with
            | none => simp [hhigh] at hread
            | some read =>
                obtain ⟨high, after⟩ := read
                rw [hhigh] at hread
                cases hread
                obtain ⟨first, hgroups, hlength, hfits, rfl⟩ := ih hhigh
                refine ⟨byte :: first, .more byte (Nat.not_lt.mp hfinal) hgroups,
                  Nat.succ_le_succ hlength, ?_, rfl⟩
                have hbyte := byte.toNat_lt
                rw [Nat.pow_succ]
                omega

theorem reads_varint : Reads varint SpellsVarint := by
  intro bytes number rest
  constructor
  · intro hread
    obtain ⟨first, hgroups, hlength, hfits, hbytes⟩ := groups_of_varintWithin hread
    exact ⟨first, ⟨hgroups, hlength, hfits⟩, hbytes⟩
  · rintro ⟨first, hspells, rfl⟩
    exact varintWithin_of_groups hspells.groups hspells.length hspells.fits rest

/-! ## Keys -/

def Form.number : Form → Nat
  | .varint => 0
  | .fixed64 => 1
  | .delimited => 2
  | .startGroup => 3
  | .endGroup => 4
  | .fixed32 => 5

theorem Form.ofNumber?_eq_some_iff {number : Nat} {form : Form} :
    ofNumber? number = some form ↔ number = form.number := by
  unfold ofNumber?
  split <;> cases form <;> simp_all [Form.number]

/-- A key holds the tag, which is not 0, above the three bits of the form. -/
structure SpellsKey (tag : Nat) (form : Form) (bytes : Bytes) : Prop where
  positive : 0 < tag
  fits : 8 * tag + form.number < 2 ^ 32
  spelled : SpellsVarint (8 * tag + form.number) bytes

theorem splitKey_eq_some_iff {key tag : Nat} {form : Form} :
    splitKey key = some (tag, form) ↔
      0 < tag ∧ key < 2 ^ 32 ∧ key = 8 * tag + form.number := by
  have hnumber : form.number < 8 := by cases form <;> decide
  have hsize : UInt32.size = 2 ^ 32 := rfl
  rw [splitKey, hsize]
  split
  case isTrue hkey =>
      simp only [Option.map_eq_some_iff, Form.ofNumber?_eq_some_iff, Prod.mk.injEq]
      constructor
      · rintro ⟨_, hform, rfl, rfl⟩
        omega
      · rintro ⟨-, -, hkey⟩
        exact ⟨form, by omega, by omega, rfl⟩
  case isFalse hkey =>
      simp only [reduceCtorEq, false_iff]
      omega

theorem SpellsKey.read {tag : Nat} {form : Form} {first : Bytes}
    (hspells : SpellsKey tag form first) (rest : Bytes) :
    ∃ key, varint (first ++ rest) = some (key, rest) ∧ splitKey key = some (tag, form) :=
  ⟨_, reads_varint.read_append hspells.spelled rest,
    splitKey_eq_some_iff.mpr ⟨hspells.positive, hspells.fits, rfl⟩⟩

theorem exists_spellsKey {bytes rest : Bytes} {key tag : Nat} {form : Form}
    (hread : varint bytes = some (key, rest)) (hsplit : splitKey key = some (tag, form)) :
    ∃ first, SpellsKey tag form first ∧ bytes = first ++ rest := by
  obtain ⟨hpositive, hfits, rfl⟩ := splitKey_eq_some_iff.mp hsplit
  obtain ⟨first, hspells, hbytes⟩ := (reads_varint _ _ _).mp hread
  exact ⟨first, ⟨hpositive, hfits, hspells⟩, hbytes⟩

/-! ## Payloads -/

/-- What follows the key of a field that is no group. -/
inductive SpellsPayload : Form → Payload → Bytes → Prop where
  | varint {number : Nat} {bytes : Bytes} (spelled : SpellsVarint number bytes) :
      SpellsPayload .varint (.varint number) bytes
  | fixed64 {content : Bytes} (length : content.length = 8) :
      SpellsPayload .fixed64 (.fixed64 content) content
  | delimited {content length : Bytes} (spelled : SpellsVarint content.length length) :
      SpellsPayload .delimited (.delimited content) (length ++ content)
  | fixed32 {content : Bytes} (length : content.length = 4) :
      SpellsPayload .fixed32 (.fixed32 content) content

theorem reads_split? (count : Nat) :
    Reads (split? count) fun content bytes => bytes = content ∧ content.length = count := by
  intro bytes content rest
  rw [split?]
  constructor
  · intro hread
    split at hread
    · cases hread
      rename_i hcount
      exact ⟨_, ⟨rfl, List.length_take_of_le hcount⟩, (List.take_append_drop count bytes).symm⟩
    · cases hread
  · rintro ⟨first, ⟨rfl, rfl⟩, rfl⟩
    simp

theorem reads_payload {form : Form} (hform : form ≠ .startGroup) :
    Reads (payload form) (SpellsPayload form) := by
  intro bytes content rest
  cases form with
  | startGroup => exact absurd rfl hform
  | endGroup =>
      simp only [payload, reduceCtorEq, false_iff]
      rintro ⟨_, ⟨⟩, -⟩
  | varint =>
      simp only [payload, Option.map_eq_some_iff, Prod.exists, Prod.mk.injEq, reads_varint _ _ _]
      constructor
      · rintro ⟨number, _, ⟨first, hspells, rfl⟩, rfl, rfl⟩
        exact ⟨first, .varint hspells, rfl⟩
      · rintro ⟨first, hspells, rfl⟩
        cases hspells with
        | varint hspells => exact ⟨_, rest, ⟨first, hspells, rfl⟩, rfl, rfl⟩
  | fixed64 =>
      simp only [payload, Option.map_eq_some_iff, Prod.exists, Prod.mk.injEq, reads_split? _ _ _ _]
      constructor
      · rintro ⟨_, _, ⟨first, ⟨rfl, hlength⟩, rfl⟩, rfl, rfl⟩
        exact ⟨first, .fixed64 hlength, rfl⟩
      · rintro ⟨first, hspells, rfl⟩
        cases hspells with
        | fixed64 hlength => exact ⟨first, rest, ⟨first, ⟨rfl, hlength⟩, rfl⟩, rfl, rfl⟩
  | fixed32 =>
      simp only [payload, Option.map_eq_some_iff, Prod.exists, Prod.mk.injEq, reads_split? _ _ _ _]
      constructor
      · rintro ⟨_, _, ⟨first, ⟨rfl, hlength⟩, rfl⟩, rfl, rfl⟩
        exact ⟨first, .fixed32 hlength, rfl⟩
      · rintro ⟨first, hspells, rfl⟩
        cases hspells with
        | fixed32 hlength => exact ⟨first, rest, ⟨first, ⟨rfl, hlength⟩, rfl⟩, rfl, rfl⟩
  | delimited =>
      simp only [payload, Option.bind_eq_bind, Option.bind_eq_some_iff, Prod.exists,
        Option.pure_def, Option.some.injEq, Prod.mk.injEq, reads_varint _ _ _,
        reads_split? _ _ _ _]
      constructor
      · rintro ⟨_, _, ⟨length, hspells, rfl⟩, _, _, ⟨first, ⟨rfl, rfl⟩, rfl⟩, rfl, rfl⟩
        exact ⟨length ++ first, .delimited hspells, (List.append_assoc _ _ _).symm⟩
      · rintro ⟨_, hspells, rfl⟩
        cases hspells with
        | delimited hspells =>
            exact ⟨_, _, ⟨_, hspells, List.append_assoc _ _ _⟩, _, _, ⟨_, ⟨rfl, rfl⟩, rfl⟩, rfl,
              rfl⟩

/-! ## Messages -/

/-- Fields one after the other, each of which takes one level of the budget; the fields of a group
take one level more, up to an end with the tag of the group. -/
inductive Spells : Nat → List Field → Bytes → Prop where
  | done (budget : Nat) : Spells budget [] []
  | field {budget tag : Nat} {form : Form} {payload : Payload} {key content rest : Bytes}
      {fields : List Field} (opened : SpellsKey tag form key)
      (spelled : SpellsPayload form payload content) (more : Spells (budget + 1) fields rest) :
      Spells (budget + 1) (⟨tag, payload⟩ :: fields) (key ++ (content ++ rest))
  | group {budget tag : Nat} {start body stop rest : Bytes} {inner fields : List Field}
      (opened : SpellsKey tag .startGroup start) (spelled : Spells budget inner body)
      (closed : SpellsKey tag .endGroup stop) (more : Spells (budget + 1) fields rest) :
      Spells (budget + 1) (⟨tag, .group⟩ :: fields) (start ++ (body ++ (stop ++ rest)))

theorem fieldsWithin_nil (budget : Nat) (groups : List Nat) :
    fieldsWithin budget groups [] = if groups.isEmpty then some [] else none := by
  rw [fieldsWithin]
  rfl

theorem fieldsWithin_end {budget tag key : Nat} {outer : List Nat} {bytes rest : Bytes}
    (hread : varint bytes = some (key, rest)) (hsplit : splitKey key = some (tag, .endGroup)) :
    fieldsWithin budget (tag :: outer) bytes = fieldsWithin budget outer rest := by
  have hbytes : bytes.isEmpty = false := by
    cases bytes with
    | nil => cases hread
    | cons => rfl
  rw [fieldsWithin, hbytes]
  simp only [Bool.false_eq_true, if_false]
  split
  · simp_all
  rename_i key' after hkey
  cases hread.symm.trans hkey
  simp only [hsplit, if_true]

theorem fieldsWithin_field {budget tag key : Nat} {form : Form} {groups : List Nat}
    {content : Payload} {bytes after rest : Bytes}
    (hread : varint bytes = some (key, after)) (hsplit : splitKey key = some (tag, form))
    (hbudget : groups.length < budget) (hpayload : payload form after = some (content, rest)) :
    fieldsWithin budget groups bytes =
      (fieldsWithin budget (if content = .group then tag :: groups else groups) rest).map
        ((if groups.isEmpty then [⟨tag, content⟩] else []) ++ ·) := by
  have hbytes : bytes.isEmpty = false := by
    cases bytes with
    | nil => cases hread
    | cons => rfl
  rw [fieldsWithin, hbytes]
  simp only [Bool.false_eq_true, if_false]
  split
  · simp_all
  rename_i key' after hkey
  cases hread.symm.trans hkey
  simp only [hsplit]
  split
  case h_1 hnone => cases hnone
  case h_2 hend =>
      cases hend
      cases hpayload
  case h_3 tag' form' _ hsplit' =>
      cases hsplit'
      rw [if_neg (Nat.not_le.mpr hbudget)]
      split
      case h_1 hnone => cases hnone.symm.trans hpayload
      case h_2 content' rest' hpayload' =>
          cases hpayload'.symm.trans hpayload
          rfl

/-! ## Reading what is spelled -/

/-- Fields that are spelled inside the open groups are read and, in a group, dropped. -/
theorem Spells.fieldsWithin_append {level budget : Nat} {inner : List Field} {body : Bytes}
    (hspells : Spells level inner body) (groups : List Nat)
    (hlevel : groups.length + level = budget) (rest : Bytes) :
    fieldsWithin budget groups (body ++ rest) =
      (fieldsWithin budget groups rest).map ((if groups.isEmpty then inner else []) ++ ·) := by
  -- On the spelling, for any groups around it: the fields of a group are spelled one group deeper.
  induction hspells generalizing groups rest with
  | done level => simp
  | @field level tag form payload key content more fields hkey hcontent _ ih =>
      obtain ⟨number, hread, hsplit⟩ := hkey.read (content ++ (more ++ rest))
      have hform : form ≠ .startGroup := by rintro rfl; cases hcontent
      have hgroup : payload ≠ .group := by rintro rfl; cases hcontent
      have hpayload := (reads_payload hform).read_append hcontent (more ++ rest)
      rw [List.append_assoc, List.append_assoc,
        fieldsWithin_field hread hsplit (by omega) hpayload, if_neg hgroup, ih groups hlevel,
        Option.map_map]
      congr 1
      cases groups <;> rfl
  | @group level tag start body stop more inner fields hstart _ hstop _ ihInner ih =>
      obtain ⟨number, hread, hsplit⟩ := hstart.read (body ++ (stop ++ (more ++ rest)))
      obtain ⟨final, hreadStop, hsplitStop⟩ := hstop.read (more ++ rest)
      have hinner := ihInner (tag :: groups) (by simp; omega) (stop ++ (more ++ rest))
      simp only [List.append_assoc]
      rw [fieldsWithin_field hread hsplit (by omega) rfl, if_pos rfl, hinner,
        fieldsWithin_end hreadStop hsplitStop, ih groups hlevel, Option.map_map, Option.map_map]
      congr 1
      cases groups <;> rfl

/-! ## What is read is spelled -/

theorem Spells.append {level : Nat} {fields others : List Field} {first second : Bytes}
    (hfirst : Spells level fields first) (hsecond : Spells level others second) :
    Spells level (fields ++ others) (first ++ second) := by
  induction hfirst with
  | done => exact hsecond
  | field hkey hcontent _ ih =>
      rw [List.append_assoc, List.append_assoc]
      exact .field hkey hcontent (ih hsecond)
  | group hstart hinner hstop _ _ ih =>
      simp only [List.append_assoc]
      exact .group hstart hinner hstop (ih hsecond)

/-- The bytes spell the rest of every open group with its end and, after the ends, the fields. -/
def Closes (budget : Nat) : List Nat → List Field → Bytes → Prop
  | [], fields, bytes => Spells budget fields bytes
  | tag :: outer, fields, bytes =>
    ∃ inner body stop rest, Spells (budget - (outer.length + 1)) inner body ∧
      SpellsKey tag .endGroup stop ∧ Closes budget outer fields rest ∧
      bytes = body ++ (stop ++ rest)

theorem Closes.prepend {budget : Nat} {groups : List Nat} {fields inner : List Field}
    {bytes body : Bytes} (hspells : Spells (budget - groups.length) inner body)
    (hcloses : Closes budget groups fields bytes) :
    Closes budget groups ((if groups.isEmpty then inner else []) ++ fields) (body ++ bytes) := by
  cases groups with
  | nil => exact Spells.append hspells hcloses
  | cons tag outer =>
      obtain ⟨within, part, stop, rest, hpart, hstop, hrest, rfl⟩ := hcloses
      exact ⟨inner ++ within, body ++ part, stop, rest, hspells.append hpart, hstop, hrest,
        (List.append_assoc _ _ _).symm⟩

theorem closes_of_fieldsWithin {budget : Nat} {groups : List Nat} {bytes : Bytes}
    {fields : List Field} (hread : fieldsWithin budget groups bytes = some fields)
    (hlevel : groups.length ≤ budget) : Closes budget groups fields bytes := by
  -- The reader goes from key to key and does not return from a group, so what it has read of the
  -- open groups is put before what closes them.
  fun_induction fieldsWithin budget groups bytes generalizing fields with
  | case1 groups bytes hbytes hgroups =>
      cases hread
      rw [List.isEmpty_iff] at hbytes hgroups
      subst hbytes hgroups
      exact .done budget
  | case6 bytes _ key after hkey _ innermost outer hsplit ih =>
      obtain ⟨stop, hstop, rfl⟩ := exists_spellsKey hkey hsplit
      exact ⟨[], [], stop, after, .done _, hstop, ih hread (Nat.le_of_succ_le hlevel), rfl⟩
  | case10 groups bytes _ key after hkey tag form _ hsplit hbudget content rest hpayload _ inner
      field =>
      rename_i ih
      obtain ⟨opened, hopened, rfl⟩ := exists_spellsKey hkey hsplit
      obtain ⟨more, hmore, rfl⟩ := Option.map_eq_some_iff.mp hread
      have hfield : field = if groups.isEmpty then [⟨tag, content⟩] else [] := by
        simp [field]
      have hdeeper : budget - groups.length = budget - (groups.length + 1) + 1 := by omega
      by_cases hform : form = .startGroup
      · subst hform
        cases hpayload
        obtain ⟨within, body, stop, others, hbody, hstop, hothers, rfl⟩ :=
          ih hmore (Nat.lt_of_not_le hbudget)
        have hspells : Spells (budget - groups.length) [⟨tag, .group⟩]
            (opened ++ (body ++ (stop ++ []))) := by
          rw [hdeeper]
          exact .group hopened hbody hstop (.done _)
        simpa [hfield] using hothers.prepend hspells
      · obtain ⟨spelled, hspelled, rfl⟩ := (reads_payload hform _ _ _).mp hpayload
        have hgroup : content ≠ .group := by rintro rfl; cases hspelled
        have hinner : inner = groups := dif_neg hgroup
        rw [hinner] at hmore ih
        have hspells : Spells (budget - groups.length) [⟨tag, content⟩]
            (opened ++ (spelled ++ [])) := by
          rw [hdeeper]
          exact .field hopened hspelled (.done _)
        simpa [hfield] using (ih hmore hlevel).prepend hspells
  | case2 | case3 | case4 | case5 | case7 | case8 | case9 => cases hread

/-- A message is read as the fields that its bytes spell, and it is refused if they spell none. -/
theorem fields_eq_some_iff {budget : Nat} {bytes : Bytes} {found : List Field} :
    fields budget bytes = some found ↔ Spells budget found bytes := by
  constructor
  · exact fun hread => closes_of_fieldsWithin hread (Nat.zero_le budget)
  · intro hspells
    have hread := hspells.fieldsWithin_append [] (Nat.zero_add budget) []
    simpa [fieldsWithin_nil, fields] using hread

/-- What stands after the fields of a message is read as if it stood alone. -/
theorem fields_append {budget : Nat} {first : Bytes} {found : List Field}
    (hfirst : fields budget first = some found) (second : Bytes) :
    fields budget (first ++ second) = (fields budget second).map (found ++ ·) :=
  (fields_eq_some_iff.mp hfirst).fieldsWithin_append [] (Nat.zero_add budget) second

end NetLowering.Wire
