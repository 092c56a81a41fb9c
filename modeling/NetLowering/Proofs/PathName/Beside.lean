import NetLowering.Load
import NetLowering.Proofs.PathName.Occurrences
import NetLowering.Proofs.PathName.Textual

/-!
# The initializer net beside a predict net

A path leads to an initializer net just if its file name is text that `predict` stands in.
The two files lie in one directory and never have the same name, so a pair of nets is loaded
from two files or from none (`observePair_beside`).
-/

namespace NetLowering.PathName

variable {path init : Path} {name initName : String}

/-! ## The file beside -/

/-- The other file of the directory has `init` for the last `predict` in the name, and so `predict`
stands in its name once less. -/
structure Beside (path init : Path) (name initName : String) : Prop where
  directory : parent init = parent path
  fileName : fileName? path = some (Text.bytes name)
  initFileName : fileName? init = some (Text.bytes initName)
  renamed : ∃ before after, StandsLast "predict".toList name.toList before after ∧
    initName.toList = before ++ "init".toList ++ after
  fewer : occurrences "predict".toList name.toList =
    occurrences "predict".toList initName.toList + 1

theorem initOf?_eq_some_iff :
    initOf? path = some init ↔
      ∃ name initName : String, fileName? path = some (Text.bytes name) ∧
        replaceLast? "predict".toList "init".toList name.toList = some initName.toList ∧
        init = child (parent path) (Text.bytes initName) := by
  simp only [initOf?, Option.bind_eq_bind, Option.bind_eq_some_iff, Option.pure_def,
    Option.some.injEq, Text.ofBytes?_eq_some_iff]
  constructor
  · rintro ⟨units, hfile, name, rfl, replaced, hreplaced, rfl⟩
    refine ⟨name, String.ofList replaced, hfile, ?_, rfl⟩
    rw [hreplaced, String.toList_ofList]
  · rintro ⟨name, initName, hfile, hreplaced, rfl⟩
    refine ⟨_, hfile, name, rfl, initName.toList, hreplaced, ?_⟩
    rw [String.ofList_toList]

theorem exists_initOf?_iff :
    (∃ init, initOf? path = some init) ↔
      ∃ name : String, fileName? path = some (Text.bytes name) ∧
        "predict".toList <:+: name.toList := by
  constructor
  · rintro ⟨init, hinit⟩
    obtain ⟨name, initName, hfile, hreplaced, -⟩ := initOf?_eq_some_iff.mp hinit
    obtain ⟨before, after, hlast, -⟩ := standsLast_of_replaceLast? (by simp) hreplaced
    exact ⟨name, hfile, before, after, hlast.stands.symm⟩
  · rintro ⟨name, hfile, hword⟩
    have hsome : replaceLast? "predict".toList "init".toList name.toList ≠ none := by
      rwa [Ne, replaceLast?_eq_none_iff (by simp), not_not]
    obtain ⟨replaced, hreplaced⟩ := Option.ne_none_iff_exists'.mp hsome
    refine ⟨_, initOf?_eq_some_iff.mpr ⟨name, String.ofList replaced, hfile, ?_, rfl⟩⟩
    rw [hreplaced, String.toList_ofList]

/-- The word in the place of `predict` neither parts the name nor makes it a blank one. -/
theorem namesFile_init {before after : List Char} (hname : NamesFile (Text.bytes name))
    (hpredict : name.toList = before ++ "predict".toList ++ after)
    (hinit : initName.toList = before ++ "init".toList ++ after) :
    NamesFile (Text.bytes initName) := by
  have hword : "init".toList.flatMap String.utf8EncodeChar = [0x69, 0x6e, 0x69, 0x74] := by
    decide
  have hunits : Text.bytes initName = before.flatMap String.utf8EncodeChar ++
      [0x69, 0x6e, 0x69, 0x74] ++ after.flatMap String.utf8EncodeChar := by
    rw [Text.bytes_eq_flatMap, hinit, List.flatMap_append, List.flatMap_append, hword]
  -- Neither a blank segment nor `..` has so many bytes.
  have hlength : 4 ≤ (Text.bytes initName).length := by
    rw [hunits, List.length_append, List.length_append]
    simp only [List.length_cons, List.length_nil]
    omega
  have hapart := hname.apart
  simp only [Text.bytes_eq_flatMap name, hpredict, List.flatMap_append, List.mem_append,
    not_or] at hapart
  refine ⟨?_, ?_, ?_⟩
  · rw [hunits, List.mem_append, List.mem_append, not_or, not_or]
    exact ⟨⟨hapart.1.1, by decide⟩, hapart.2⟩
  · rw [isBlank, Bool.or_eq_false_iff, beq_eq_false_iff_ne, beq_eq_false_iff_ne]
    constructor <;> intro hblank <;> simp [hblank] at hlength
  · intro hbelow
    simp [hbelow] at hlength

theorem beside_of_initOf? (hinit : initOf? path = some init) :
    ∃ name initName, Beside path init name initName := by
  obtain ⟨name, initName, hfile, hreplaced, rfl⟩ := initOf?_eq_some_iff.mp hinit
  obtain ⟨before, after, hlast, hreplaced⟩ := standsLast_of_replaceLast? (by simp) hreplaced
  obtain ⟨hinitFile, hdirectory⟩ := child_parent hfile
    (namesFile_init (namesFile_of_fileName? hfile) hlast.stands hreplaced)
  refine ⟨name, initName, hdirectory, hfile, hinitFile, ⟨before, after, hlast, hreplaced⟩, ?_⟩
  rw [hlast.stands, hreplaced]
  exact occurrences_predict before after

/-- The two files have different names, however their paths are written. -/
theorem Beside.fileName_ne (hbeside : Beside path init name initName) :
    fileName? init ≠ fileName? path := by
  rw [hbeside.fileName, hbeside.initFileName]
  intro hsame
  have htext := congrArg Text.ofBytes? (Option.some.inj hsame)
  rw [Text.ofBytes?_bytes, Text.ofBytes?_bytes, Option.some.injEq] at htext
  have hfewer := hbeside.fewer
  rw [htext] at hfewer
  omega

/-- A path that is text leads to a path that is text. -/
theorem initPath?_map_bytes (text : String) :
    (initPath? text).map Text.bytes = initOf? (Text.bytes text) := by
  rw [initPath?]
  cases hinit : initOf? (Text.bytes text) with
  | none => rfl
  | some init =>
      obtain ⟨name, initName, -, -, rfl⟩ := initOf?_eq_some_iff.mp hinit
      obtain ⟨initText, htext⟩ := (isText_parent text).child ⟨initName, rfl⟩
      rw [htext, Option.bind_some, Text.ofBytes?_bytes, Option.map_some]

end NetLowering.PathName

namespace NetLowering

open PathName

variable {path init : Path} {contents : Path → Option Bytes} {opened later : List Path}

/-! ## What is opened -/

/-- Reads these contents. -/
def Reader.plain (contents : Path → Option Bytes) : Reader Id := contents

/-- Reads these contents, and notes each path that it opens. -/
def Reader.noting (contents : Path → Option Bytes) : Reader (StateM (List Path)) := fun path => do
  modify (· ++ [path])
  return contents path

/-- The program gives this answer and opens these paths. -/
def Opens {α : Type} (program : ExceptT LoadError (StateM (List Path)) α)
    (answer : Except LoadError α) (opened : List Path) : Prop :=
  ∀ noted, program.run.run noted = (answer, noted ++ opened)

namespace Opens

variable {α β : Type} {program : ExceptT LoadError (StateM (List Path)) α}
  {next : α → ExceptT LoadError (StateM (List Path)) β}

theorem lift (answer : Except LoadError α) : Opens (liftM answer) answer [] := by
  intro noted
  rw [List.append_nil]
  cases answer <;> rfl

theorem bind_ok {value : α} {answer : Except LoadError β}
    (hfirst : Opens program (.ok value) opened) (hnext : Opens (next value) answer later) :
    Opens (program >>= next) answer (opened ++ later) := by
  intro noted
  rw [ExceptT.run_bind, StateT.run_bind, hfirst noted, ← List.append_assoc]
  exact hnext (noted ++ opened)

theorem bind_error {error : LoadError} (hfirst : Opens program (.error error) opened) :
    Opens (program >>= next) (.error error) opened := by
  intro noted
  rw [ExceptT.run_bind, StateT.run_bind, hfirst noted]
  rfl

end Opens

theorem run_bind_plain {α β : Type} (program : ExceptT LoadError Id α)
    (next : α → ExceptT LoadError Id β) :
    (program >>= next).run.run = program.run.run.bind fun value => (next value).run.run := by
  rw [ExceptT.run_bind]
  cases program.run <;> rfl

theorem Net.load_plain (contents : Path → Option Bytes) (path : Path) :
    (Net.load (Reader.plain contents) path).run.run = match contents path with
      | some bytes => decode bytes
      | none => .error (.unreadable path) := by
  change (match contents path with
    | some bytes => (liftM (decode bytes) : ExceptT LoadError Id Net)
    | none => throw (LoadError.unreadable path)).run = _
  split <;> rfl

theorem Net.opens_load (contents : Path → Option Bytes) (path : Path) :
    Opens (Net.load (Reader.noting contents) path) (Net.load (Reader.plain contents) path).run.run
      [path] := by
  intro noted
  rw [Net.load_plain]
  change ((match contents path with
    | some bytes => (liftM (decode bytes) : ExceptT LoadError (StateM (List Path)) Net)
    | none => throw (LoadError.unreadable path)).run).run (noted ++ [path]) = _
  split <;> rfl

theorem FlatNet.opens_load (options : LoadOptions) (contents : Path → Option Bytes)
    (path init : Path) :
    ∃ opened, opened <+: [path, init] ∧
      Opens (load options (Reader.noting contents) path init)
        (load options (Reader.plain contents) path init).run.run opened := by
  have hpredict := Net.opens_load contents path
  have hinit := Net.opens_load contents init
  rw [load, load, run_bind_plain]
  cases hfirst : (Net.load (Reader.plain contents) path).run.run with
  | error error =>
      -- The initializer net is not asked for any more.
      rw [hfirst] at hpredict
      exact ⟨[path], by simp, hpredict.bind_error⟩
  | ok predictNet =>
      rw [hfirst] at hpredict
      refine ⟨[path] ++ [init], by simp, hpredict.bind_ok ?_⟩
      rw [Except.bind, run_bind_plain]
      cases hsecond : (Net.load (Reader.plain contents) init).run.run with
      | error error =>
          rw [hsecond] at hinit
          exact hinit.bind_error
      | ok initNet =>
          rw [hsecond] at hinit
          exact hinit.bind_ok (.lift _)

theorem FlatNet.load_plain_of_read (options : LoadOptions) {predict initial : Bytes}
    (hpredict : contents path = some predict) (hinit : contents init = some initial) :
    (load options (Reader.plain contents) path init).run.run =
      ofBytes options predict initial := by
  rw [load, run_bind_plain, Net.load_plain, hpredict, ofBytes]
  refine congrArg (Except.bind (Net.decode predict)) (funext fun predictNet => ?_)
  rw [run_bind_plain, Net.load_plain, hinit]
  rfl

namespace FlatNet

/-- What loading a pair of nets answers, and the paths that it opens. -/
def observePair (options : LoadOptions) (contents : Path → Option Bytes) (path : Path) :
    Except LoadError FlatNet × List Path :=
  (loadPair options (Reader.noting contents) path).run.run []

/-- The nets come from these two files, each of which is opened at most once, and are read as their
bytes are. -/
structure LoadsBoth (options : LoadOptions) (contents : Path → Option Bytes) (path init : Path) :
    Prop where
  opened : (observePair options contents path).2 <+: [path, init]
  once : (observePair options contents path).2.Nodup
  answer : ∀ predict initial, contents path = some predict → contents init = some initial →
    (observePair options contents path).1 = ofBytes options predict initial

theorem observePair_of_none (options : LoadOptions) (contents : Path → Option Bytes)
    (hinit : initOf? path = none) :
    observePair options contents path = (.error (.noInitPath path), []) := by
  rw [observePair, loadPair, hinit]
  rfl

theorem observePair_of_some (options : LoadOptions) (contents : Path → Option Bytes)
    (hinit : initOf? path = some init) :
    ∃ opened, opened <+: [path, init] ∧ observePair options contents path =
      ((load options (Reader.plain contents) path init).run.run, opened) := by
  obtain ⟨opened, hopened, hopens⟩ := opens_load options contents path init
  refine ⟨opened, hopened, ?_⟩
  rw [observePair, loadPair, hinit]
  exact hopens []

theorem loadsBoth_of_initOf? (options : LoadOptions) (contents : Path → Option Bytes)
    (hinit : initOf? path = some init) : LoadsBoth options contents path init := by
  obtain ⟨opened, hopened, hobserve⟩ := observePair_of_some options contents hinit
  obtain ⟨name, initName, hbeside⟩ := beside_of_initOf? hinit
  have hpair : [path, init].Nodup := by
    simpa using fun hsame : path = init => hbeside.fileName_ne (congrArg fileName? hsame.symm)
  constructor
  · rw [hobserve]
    exact hopened
  · rw [hobserve]
    exact hopened.sublist.nodup hpair
  · intro predict initial hpredict hinitial
    rw [hobserve]
    exact load_plain_of_read options hpredict hinitial

/-- Noting what is opened does not change the answer. -/
theorem ofPair_eq_observePair (options : LoadOptions) (files : Files) (text : String) :
    ofPair options files text = (observePair options files.reader (Text.bytes text)).1 := by
  cases hinit : initOf? (Text.bytes text) with
  | none =>
      rw [observePair_of_none options files.reader hinit, ofPair, loadPair, hinit]
      rfl
  | some init =>
      obtain ⟨opened, -, hobserve⟩ := observePair_of_some options files.reader hinit
      rw [hobserve, ofPair, loadPair, hinit]
      rfl

/-- A path leads to an initializer net just if its file name is text that `predict` stands in, and
this net then lies beside the predict net under another name.  So a pair of nets is loaded as the
bytes of two different files, and nothing is opened before the paths of both are known.  Paths
that are text are among these. -/
theorem observePair_beside (path : Path) :
    ((∃ init, initOf? path = some init) ↔
      ∃ name : String, fileName? path = some (Text.bytes name) ∧
        "predict".toList <:+: name.toList) ∧
    (∀ init, initOf? path = some init →
      (∃ name initName, Beside path init name initName) ∧ fileName? init ≠ fileName? path) ∧
    (∀ options contents, initOf? path = none →
      observePair options contents path = (.error (.noInitPath path), [])) ∧
    (∀ options contents init, initOf? path = some init →
      LoadsBoth options contents path init) ∧
    ∀ text : String, path = Text.bytes text →
      (initPath? text).map Text.bytes = initOf? path ∧
        ∀ options files, ofPair options files text =
          (observePair options files.reader path).1 := by
  refine ⟨exists_initOf?_iff, fun init hinit => ?_, fun options contents =>
    observePair_of_none options contents, fun options contents init =>
    loadsBoth_of_initOf? options contents, ?_⟩
  · obtain ⟨name, initName, hbeside⟩ := beside_of_initOf? hinit
    exact ⟨⟨name, initName, hbeside⟩, hbeside.fileName_ne⟩
  · rintro text rfl
    exact ⟨initPath?_map_bytes text, fun options files => ofPair_eq_observePair options files text⟩

/-- `predict` stands in the directory too, twice in the name, and a slash after it. -/
def oftenPredict : Path := Text.bytes "predict/é_predictpredict.pb/"

def onceInit : Path := Text.bytes "predict/é_predictinit.pb"

def emptyNets (path : Path) : Option Bytes :=
  if path = oftenPredict ∨ path = onceInit then some [] else none

theorem observePair_oftenPredict :
    initOf? oftenPredict = some onceInit ∧
      (∃ name initName, Beside oftenPredict onceInit name initName) ∧
      LoadsBoth {} emptyNets oftenPredict onceInit ∧
      (observePair {} emptyNets oftenPredict).1 = ofBytes {} [] [] ∧
      (observePair {} emptyNets oftenPredict).2 = [oftenPredict, onceInit] ∧
      initPath? "predict/é_predictpredict.pb/" = some "predict/é_predictinit.pb" := by
  have hinit : initOf? oftenPredict = some onceInit := by decide +kernel
  obtain ⟨-, hbeside, -, hboth, -⟩ := observePair_beside oftenPredict
  have hloads := hboth {} emptyNets onceInit hinit
  exact ⟨hinit, (hbeside onceInit hinit).1, hloads,
    hloads.answer [] [] (by decide +kernel) (by decide +kernel), by decide +kernel,
    by decide +kernel⟩

end FlatNet

end NetLowering
