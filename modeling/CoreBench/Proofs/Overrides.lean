import CoreBench.Config.Load
import CoreBench.Proofs.Numerals
import Mathlib.Algebra.Ring.Nat

/-!
Which settings the environment replaces. A setting has a type, and its variable has to be written
as a value of that type. The variables are taken in a fixed order up to the first one that is not:
the settings before it hold what their variables say, it and the later ones what they held before.
Whatever is loaded has passed the check, so it can be used.
-/

namespace CoreBench

/-- What an order of bytes may be called, in small letters. -/
def ByteOrder.names : ByteOrder → List String
  | big => ["big", "be", "1", "true"]
  | little => ["little", "le", "0", "false"]

theorem ByteOrder.names_apart (word : String) (named : word ∈ names big) :
    word ∉ names little := by
  simp only [names, List.mem_cons, List.not_mem_nil, or_false] at named
  rcases named with rfl | rfl | rfl | rfl <;> decide

theorem ByteOrder.of_text_ok_iff (text : String) (order : ByteOrder) :
    ofText text = .ok order ↔
      String.ofList (Text.lower (Text.trim text.toList)) ∈ order.names := by
  let word := String.ofList (Text.lower (Text.trim text.toList))
  have unfolded : ofText text = if word ∈ names big then .ok big
      else if word ∈ names little then .ok little else .error ⟨word⟩ := rfl
  change ofText text = .ok order ↔ word ∈ order.names
  rw [unfolded]
  by_cases first : word ∈ names big
  · have other := names_apart word first
    cases order <;> simp [first, other]
  · by_cases second : word ∈ names little
    · cases order <;> simp [first, second]
    · cases order <;> simp [first, second]

namespace Setting

inductive Kind where
  | natural (bits : Nat)
  | order
  deriving DecidableEq, Repr

/-- The type of what a setting holds. -/
def kind : Setting → Kind
  | wordSize | irqLines => .natural 32
  | generalCount | specialCount | stride | instrBytes => .natural 64
  | byteOrder => .order

inductive Value where
  | number (n : Nat)
  | order (order : ByteOrder)
  deriving DecidableEq, Repr

/-- How the values of a type are written. -/
inductive Spells : Kind → List Char → Value → Prop where
  | plain {bits n : Nat} {cs : List Char} (decimal : Text.Decimal cs n) (fits : n < 2 ^ bits) :
      Spells (.natural bits) cs (.number n)
  | signed {bits n : Nat} {cs : List Char} (decimal : Text.Decimal cs n) (fits : n < 2 ^ bits) :
      Spells (.natural bits) ('+' :: cs) (.number n)
  | named {order : ByteOrder} {cs : List Char}
      (named : String.ofList (Text.lower cs) ∈ order.names) : Spells .order cs (.order order)

/-- The text is a value of the setting's type, perhaps with white space around it. -/
def Reads (setting : Setting) (text : String) (value : Value) : Prop :=
  Spells setting.kind (Text.trim text.toList) value

def Kind.read? (kind : Kind) (text : String) : Option Value :=
  match kind with
  | .natural bits => (Text.unsigned? bits (Text.trim text.toList)).map .number
  | .order => (ByteOrder.ofText text).toOption.map .order

theorem read_iff (setting : Setting) (text : String) (value : Value) :
    setting.kind.read? text = some value ↔ setting.Reads text value := by
  rw [Reads]
  cases setting.kind with
  | natural bits =>
      have power : 1 <<< bits = 2 ^ bits := Nat.one_shiftLeft bits
      simp only [Kind.read?, Option.map_eq_some_iff, Text.unsigned_iff, power]
      constructor
      · rintro ⟨n, ⟨decimal | ⟨digits, signed, decimal⟩, fits⟩, rfl⟩
        · exact .plain decimal fits
        · rw [signed]
          exact .signed decimal fits
      · intro spells
        generalize Text.trim text.toList = cs at spells
        cases spells with
        | plain decimal fits => exact ⟨_, ⟨.inl decimal, fits⟩, rfl⟩
        | signed decimal fits => exact ⟨_, ⟨.inr ⟨_, rfl, decimal⟩, fits⟩, rfl⟩
  | order =>
      have read (order : ByteOrder) :
          (ByteOrder.ofText text).toOption = some order ↔ ByteOrder.ofText text = .ok order := by
        cases ByteOrder.ofText text <;> simp [Except.toOption]
      simp only [Kind.read?, Option.map_eq_some_iff, read, ByteOrder.of_text_ok_iff]
      constructor
      · rintro ⟨order, named, rfl⟩
        exact .named named
      · intro spells
        generalize Text.trim text.toList = cs at spells ⊢
        cases spells with
        | named named => exact ⟨_, named, rfl⟩

end Setting

/-- What the architecture has for a setting. -/
def Arch.value (arch : Arch) : Setting → Setting.Value
  | .wordSize => .number arch.wordSize
  | .generalCount => .number arch.generalCount
  | .specialCount => .number arch.specialCount
  | .irqLines => .number arch.irqLines
  | .stride => .number arch.stride
  | .instrBytes => .number arch.instrBytes
  | .byteOrder => .order arch.byteOrder

namespace Setting

variable {setting : Setting} {text : String} {arch next : Arch}

theorem assign_none_iff : setting.assign? text arch = none ↔ setting.kind.read? text = none := by
  cases setting with
  | byteOrder =>
      cases read : ByteOrder.ofText text <;> simp [assign?, kind, Kind.read?, Except.toOption, read]
  | _ => simp [assign?, kind, Kind.read?]

theorem assign_order (assigned : byteOrder.assign? text arch = some next) :
    ∃ order, ByteOrder.ofText text = .ok order ∧ next = { arch with byteOrder := order } := by
  cases read : ByteOrder.ofText text with
  | error error => simp [assign?, read] at assigned
  | ok order =>
      simp only [assign?, read, Option.some.injEq] at assigned
      exact ⟨order, rfl, assigned.symm⟩

theorem assign_value (assigned : setting.assign? text arch = some next) :
    setting.kind.read? text = some (next.value setting) := by
  cases setting with
  | byteOrder =>
      obtain ⟨order, read, rfl⟩ := assign_order assigned
      simp [kind, Kind.read?, Except.toOption, read, Arch.value]
  | _ =>
      obtain ⟨n, read, rfl⟩ := Option.map_eq_some_iff.mp assigned
      simp [kind, Kind.read?, read, Arch.value]

theorem assign_others (assigned : setting.assign? text arch = some next) (other : Setting)
    (apart : other ≠ setting) : next.value other = arch.value other := by
  cases setting with
  | byteOrder =>
      obtain ⟨order, read, rfl⟩ := assign_order assigned
      cases other <;> first | rfl | exact absurd rfl apart
  | _ =>
      obtain ⟨n, read, rfl⟩ := Option.map_eq_some_iff.mp assigned
      cases other <;> first | rfl | exact absurd rfl apart

/-- The setting holds the value of its variable if that is set, and what it held otherwise. -/
def Replaced (setting : Setting) (environment : Environment) (before after : Arch) : Prop :=
  match environment setting.variableName with
  | none => after.value setting = before.value setting
  | some text => setting.Reads text (after.value setting)

/-- The variable of the setting is not set, or it is a value of the setting's type. -/
def Readable (setting : Setting) (environment : Environment) : Prop :=
  ∀ text, environment setting.variableName = some text → ∃ value, setting.Reads text value

end Setting

/-- The variable that the error names is set to the text in it, and that is none of the
setting's type. -/
structure BadSetting.Holds (error : BadSetting) (environment : Environment) : Prop where
  present : environment error.setting.variableName = some error.value
  unread : ¬ ∃ value, error.setting.Reads error.value value

namespace Arch

/-- Exactly the listed settings have been replaced. -/
structure Replaces (environment : Environment) (settings : List Setting) (before after : Arch) :
    Prop where
  replaced : ∀ setting ∈ settings, setting.Replaced environment before after
  kept : ∀ setting, setting ∉ settings → after.value setting = before.value setting

variable {environment : Environment} {settings : List Setting} {setting : Setting}
  {before middle after : Arch}

theorem Replaces.nil : Replaces environment [] before before :=
  ⟨by simp, fun _ _ => rfl⟩

theorem Replaces.cons (first : setting.Replaced environment before middle)
    (others : ∀ other, other ≠ setting → middle.value other = before.value other)
    (fresh : setting ∉ settings) (rest : Replaces environment settings middle after) :
    Replaces environment (setting :: settings) before after := by
  constructor
  · intro other member
    rcases List.mem_cons.mp member with rfl | later
    · rw [Setting.Replaced, rest.kept other fresh]
      exact first
    · have apart : other ≠ setting := by
        rintro rfl
        exact fresh later
      have replaced := rest.replaced other later
      rwa [Setting.Replaced, others other apart] at replaced
  · intro other absent
    obtain ⟨apart, outside⟩ := List.ne_and_not_mem_of_not_mem_cons absent
    rw [rest.kept other outside, others other apart]

theorem Replaces.readable (replaces : Replaces environment settings before after)
    (member : setting ∈ settings) : setting.Readable environment := by
  intro text set
  have replaced := replaces.replaced setting member
  rw [Setting.Replaced, set] at replaced
  exact ⟨_, replaced⟩

/-- What comes later in a list without repetitions has not been replaced. -/
theorem Replaces.later_kept {front back : List Setting}
    (replaces : Replaces environment front before after) (distinct : (front ++ back).Nodup) :
    ∀ setting ∈ back, after.value setting = before.value setting := by
  intro setting later
  apply replaces.kept
  intro earlier
  exact (List.nodup_append.mp distinct).2.2 setting earlier setting later rfl

/-- How far replacing has come: through the whole list, or up to the first variable that cannot be
read. -/
inductive Stops (environment : Environment) (settings : List Setting) (before after : Arch) :
    Except BadSetting Unit → Prop where
  | never (replaces : Replaces environment settings before after) :
      Stops environment settings before after (.ok ())
  | stopped {front back : List Setting} {error : BadSetting}
      (whole : settings = front ++ error.setting :: back) (holds : error.Holds environment)
      (replaces : Replaces environment front before after) :
      Stops environment settings before after (.error error)

theorem Stops.cons {result : Except BadSetting Unit}
    (first : setting.Replaced environment before middle)
    (others : ∀ other, other ≠ setting → middle.value other = before.value other)
    (fresh : setting ∉ settings) (rest : Stops environment settings middle after result) :
    Stops environment (setting :: settings) before after result := by
  cases rest with
  | never replaces => exact .never (.cons first others fresh replaces)
  | @stopped front back error whole holds replaces =>
      have absent : setting ∉ front := by
        intro member
        apply fresh
        rw [whole]
        exact List.mem_append_left _ member
      exact .stopped (by rw [whole, List.cons_append]) holds (.cons first others absent replaces)

theorem Stops.ok_iff {result : Except BadSetting Unit}
    (stops : Stops environment settings before after result) :
    result = .ok () ↔ ∀ setting ∈ settings, setting.Readable environment := by
  cases stops with
  | never replaces =>
      simp only [true_iff]
      exact fun setting member => replaces.readable member
  | stopped whole holds _ =>
      simp only [reduceCtorEq, false_iff, whole]
      intro readable
      exact holds.unread (readable _ (List.mem_append_right _ List.mem_cons_self) _ holds.present)

/-- Each setting is replaced on its own, so a list of different ones is replaced one by one. -/
theorem replace_each_stops (environment : Environment) (settings : List Setting)
    (before after : Arch) (result : Except BadSetting Unit) (distinct : settings.Nodup)
    (done : before.replaceEach environment settings = (result, after)) :
    Stops environment settings before after result := by
  induction settings generalizing before with
  | nil =>
      cases done
      exact .never .nil
  | cons setting rest ih =>
      obtain ⟨fresh, distinct⟩ := List.nodup_cons.mp distinct
      rw [replaceEach] at done
      split at done
      next unset =>
        have kept : setting.Replaced environment before before := by simp [Setting.Replaced, unset]
        exact .cons kept (fun _ _ => rfl) fresh (ih before distinct done)
      next text set =>
        split at done
        next unread =>
          cases done
          have holds : (BadSetting.mk setting text).Holds environment := by
            refine ⟨set, ?_⟩
            rintro ⟨value, reads⟩
            rw [← Setting.read_iff, Setting.assign_none_iff.mp unread] at reads
            cases reads
          exact .stopped rfl holds .nil
        next next assigned =>
          refine .cons ?_ (Setting.assign_others assigned) fresh (ih next distinct done)
          rw [Setting.Replaced, set]
          exact (Setting.read_iff setting text _).mp (Setting.assign_value assigned)

end Arch

namespace Setting

theorem all_distinct : all.Nodup := by
  decide

theorem mem_all (setting : Setting) : setting ∈ all := by
  cases setting <;> decide

end Setting

namespace Config

theorem check_ok_iff (config checked : Config) :
    config.check = .ok checked ↔ config = checked ∧ checked.Usable := by
  rw [check, ← issue?_eq_none_iff]
  cases found : config.issue? with
  | some issue => simp only [reduceCtorEq, false_iff]; rintro ⟨rfl, none⟩; simp [found] at none
  | none =>
      simp only [Except.ok.injEq]
      constructor
      · rintro rfl
        exact ⟨rfl, found⟩
      · exact fun both => both.1

theorem adapt_ok_iff (environment : Environment) (config loaded : Config) :
    config.adapt environment = .ok loaded ↔
      config.replaceFrom environment = (.ok (), loaded) ∧ loaded.Usable := by
  rw [adapt]
  split
  next error after failed => simp [failed]
  next after done => rw [check_ok_iff, done]; simp

theorem load_usable (environment : Environment) (content : Except String String)
    (loaded : Config) (done : load environment content = .ok loaded) : loaded.Usable := by
  cases content with
  | error reason => cases done
  | ok text =>
      rw [load] at done
      cases read : parse text with
      | error error =>
          rw [read] at done
          cases done
      | ok config =>
          rw [read] at done
          exact ((adapt_ok_iff environment config loaded).mp done).2

/-- Replacing succeeds when every variable that is set can be read; otherwise it goes up to the
first one that cannot. Only the architecture changes, and what is loaded can be used. -/
theorem replace_from_accounts (environment : Environment) (config : Config) :
    let result := (config.replaceFrom environment).1
    let after := (config.replaceFrom environment).2
    (result = .ok () ↔ ∀ setting : Setting, setting.Readable environment) ∧
    (result = .ok () → ∀ setting : Setting,
      setting.Replaced environment config.arch after.arch) ∧
    (∀ error, result = .error error → ∃ front back,
      Setting.all = front ++ error.setting :: back ∧ error.Holds environment ∧
      (∀ setting ∈ front, setting.Readable environment ∧
        setting.Replaced environment config.arch after.arch) ∧
      ∀ setting ∈ error.setting :: back,
        after.arch.value setting = config.arch.value setting) ∧
    after.wiring = config.wiring ∧ after.timing = config.timing ∧
    (∀ loaded, config.adapt environment = .ok loaded ↔
      config.replaceFrom environment = (.ok (), loaded) ∧ loaded.Usable) ∧
    (∀ loaded, loadDefault environment = .ok loaded → loaded.Usable) ∧
    ∀ content loaded, load environment content = .ok loaded → loaded.Usable := by
  intro result after
  have stops : Arch.Stops environment Setting.all config.arch after.arch result :=
    Arch.replace_each_stops environment Setting.all config.arch _ _ Setting.all_distinct rfl
  refine ⟨?_, ?_, ?_, rfl, rfl, adapt_ok_iff environment config,
    fun loaded done => ((adapt_ok_iff environment {} loaded).mp done).2,
    fun content loaded => load_usable environment content loaded⟩
  · rw [stops.ok_iff]
    exact ⟨fun readable setting => readable setting setting.mem_all,
      fun readable setting _ => readable setting⟩
  · intro succeeded setting
    rw [succeeded] at stops
    cases stops with
    | never replaces => exact replaces.replaced setting setting.mem_all
  · intro error failed
    rw [failed] at stops
    cases stops with
    | @stopped front back _ whole holds replaces =>
        have distinct := Setting.all_distinct
        rw [whole] at distinct
        exact ⟨front, back, whole, holds, fun setting member =>
          ⟨replaces.readable member, replaces.replaced setting member⟩,
          replaces.later_kept distinct⟩

/-- A word size can be read, a number of registers cannot, and the stride comes behind it. -/
def crossed : Environment := fun name =>
  Table.get? [("ISAG_WORD_SIZE", " +16 "), ("ISAG_NUM_SPR", " many"), ("ISAG_STRIDE", "2")] name

theorem crossed_accounts :
    replaceFrom crossed {} = (.error ⟨.specialCount, " many"⟩, { arch := { wordSize := 16 } }) ∧
      (¬ ∀ setting : Setting, setting.Readable crossed) ∧
      ∃ front back, Setting.all = front ++ Setting.specialCount :: back ∧
        (BadSetting.mk .specialCount " many").Holds crossed ∧
        ∀ setting ∈ front, setting.Replaced crossed {} { wordSize := 16 } := by
  have failed : replaceFrom crossed {} =
      (.error ⟨.specialCount, " many"⟩, { arch := { wordSize := 16 } }) := by decide +kernel
  have accounts := replace_from_accounts crossed {}
  rw [failed] at accounts
  obtain ⟨succeeds, _, stopped, _⟩ := accounts
  obtain ⟨front, back, whole, holds, replaced, _⟩ := stopped _ rfl
  refine ⟨failed, fun readable => ?_, front, back, whole, holds,
    fun setting member => (replaced setting member).2⟩
  cases succeeds.mpr readable

end Config

end CoreBench
