import LayoutRules.Proofs.Invocation.Progress
import LayoutRules.Proofs.Invocation.Surfaces
import LayoutRules.Proofs.Text.Numeral
import Mathlib.Data.List.Nodup

/-! The command lines that ask for a single job. Its options may be spelled in more
than one way and stand in any order, anywhere among the operands; they are read one
word after the other, and the same job is asked for. -/
namespace LayoutRules

namespace Arguments

/-- What one option says about a single job. -/
inductive Setting where
  | columns (columns : Columns)
  | number (number : UInt32)
  | noHeader
  | check
  | verbose
  deriving DecidableEq

namespace Setting

def flag : Setting → Flag
  | columns _ => .valued .want
  | number _ => .valued .number
  | noHeader => .switch .noHeader
  | check => .switch .check
  | verbose => .switch .verbose

/-- The words of an option. Its value is attached to it or a word
of its own, and a number is in decimal. -/
inductive Spelled : Setting → List Text → Prop
  | want (asked) : Spelled (columns asked) ["--want".toList,asked.code]
  | wantAttached (asked) : Spelled (columns asked) ["--want=".toList ++ asked.code]
  | number {asked numeral} (filled : numeral ≠ [])
      (value : Numeral.value? 10 numeral = some asked.toNat) :
      Spelled (number asked) ["--number".toList,numeral]
  | numberAttached {asked numeral} (filled : numeral ≠ [])
      (value : Numeral.value? 10 numeral = some asked.toNat) :
      Spelled (number asked) ["--number=".toList ++ numeral]
  | noHeader : Spelled noHeader ["--no-header".toList]
  | check : Spelled check ["--check".toList]
  | verbose : Spelled verbose ["--verbose".toList]
  | letter : Spelled verbose ["-v".toList]

def Missing (given : Arguments) : Setting → Prop
  | columns _ => given.columns = .none
  | number _ => given.number = .none
  | noHeader => given.noHeading = false
  | check => given.check = false
  | verbose => given.verbose = false

end Setting

def put (given : Arguments) : Setting → Arguments
  | .columns columns => { given with columns := some columns }
  | .number number => { given with number := some number }
  | .noHeader => { given with noHeading := true }
  | .check => { given with check := true }
  | .verbose => { given with verbose := true }

/-- The words in which settings and operands are spelled, each of the two in
its own order and at any place among the other. -/
inductive CommandLine : List Setting → List Text → List Text → Prop
  | nil : CommandLine [] [] []
  | setting {setting settings operands words spelling}
      (spelled : Setting.Spelled setting spelling) (rest : CommandLine settings operands words) :
      CommandLine (setting :: settings) operands (spelling ++ words)
  | operand {text settings operands words} (plain : Word.IsPlain text)
      (rest : CommandLine settings operands words) :
      CommandLine settings (text :: operands) (text :: words)

variable {given : Arguments} {setting other : Setting} {settings : List Setting} {text : Text}
  {operands words spelling : List Text}

theorem put_comm (apart : setting.flag ≠ other.flag) :
    (given.put setting).put other = (given.put other).put setting := by
  cases setting <;> cases other <;> first | rfl | exact absurd rfl apart

theorem put_addOperand :
    (given.addOperand text).put setting = (given.put setting).addOperand text := by
  unfold addOperand
  cases setting <;> split <;> simp_all [put]

theorem Setting.Missing.put (apart : other.flag ≠ setting.flag) (missing : other.Missing given) :
    other.Missing (given.put setting) := by
  cases setting <;> cases other <;> first | exact missing | exact absurd rfl apart

theorem Setting.Missing.addOperand (missing : setting.Missing given) :
    setting.Missing (given.addOperand text) := by
  unfold Arguments.addOperand
  cases setting <;> split <;> exact missing

theorem isPlain_numeral {n : Nat} (value : Numeral.value? 10 text = some n) :
    Word.IsPlain text := by
  cases text with
  | nil => nofun
  | cons c rest =>
    exact fun dash => absurd (Option.some.inj dash) (Numeral.unsigned_of_value value).2

theorem isPlain_code (columns : Columns) : Word.IsPlain columns.code := by
  cases columns <;> nofun

theorem setValue_want (missing : given.columns = .none) (asked : Columns) :
    given.setValue .want asked.code = .ok (given.put (.columns asked)) := by
  simp [setValue,missing,put,Columns.ofCode?_eq_some_iff.mpr (rfl : asked.code = _)]

theorem setValue_number {asked : UInt32} {numeral : Text} (missing : given.number = .none)
    (filled : numeral ≠ []) (value : Numeral.value? 10 numeral = some asked.toNat) :
    given.setValue .number numeral = .ok (given.put (.number asked)) := by
  simp [setValue,missing,put,Numeral.readUInt32_of_value filled value]

open Progress in
theorem Setting.Spelled.leads (spelled : setting.Spelled spelling)
    (missing : setting.Missing given) : Leads given spelling (given.put setting) := by
  cases spelled with
  | want asked => exact leads_separate rfl rfl (isPlain_code asked) (setValue_want missing asked)
  | wantAttached asked => exact leads_attached rfl rfl (setValue_want missing asked)
  | number filled value =>
    exact leads_separate rfl rfl (isPlain_numeral value) (setValue_number missing filled value)
  | numberAttached filled value =>
    exact leads_attached rfl rfl (setValue_number missing filled value)
  | noHeader => exact leads_switch rfl rfl (if_neg (missing ▸ nofun))
  | check => exact leads_switch rfl rfl (if_neg (missing ▸ nofun))
  | verbose => exact leads_switch rfl rfl (if_neg (missing ▸ nofun))
  | letter => exact leads_letter rfl rfl (if_neg (missing ▸ nofun))

/-- Every operand is a path that is not empty, but for the first
where a destination is still to come. -/
def Names (given : Arguments) (operands : List Text) : Prop :=
  [] ∉ if given.destination = .none then operands.tail else operands

theorem Names.head (names : given.Names (text :: operands)) :
    given.destination = .none ∨ text ≠ [] := by
  by_cases first : given.destination = .none
  · exact .inl first
  · rw [Names,if_neg first] at names
    exact .inr (List.ne_of_not_mem_cons names).symm

theorem Names.tail (names : given.Names (text :: operands)) :
    (given.addOperand text).Names operands := by
  unfold Names addOperand at *
  by_cases first : given.destination = .none
  · rw [if_pos first] at names ⊢
    rwa [if_neg (Option.some_ne_none text)]
  · rw [if_neg first] at names ⊢
    rw [if_neg first]
    exact List.not_mem_of_not_mem_cons names

theorem Names.put (names : given.Names operands) : (given.put setting).Names operands := by
  cases setting <;> exact names

/-- A command line is read to what its settings say and its operands name, if no
two of the settings are about the same option. -/
theorem CommandLine.leads (line : CommandLine settings operands words)
    (missing : ∀ setting ∈ settings, setting.Missing given)
    (distinct : (settings.map Setting.flag).Nodup) (names : given.Names operands) :
    Progress.Leads given words (operands.foldl addOperand (settings.foldl put given)) := by
  induction line generalizing given with
  | nil => exact .nil
  | @setting setting settings operands words spelling spelled rest ih =>
    obtain ⟨fresh,distinct⟩ := List.nodup_cons.mp distinct
    obtain ⟨now,later⟩ := List.forall_mem_cons.mp missing
    have still : ∀ other ∈ settings, other.Missing (given.put setting) := by
      intro other member
      exact (later other member).put fun same => fresh (same ▸ List.mem_map_of_mem member)
    exact (spelled.leads now).append (ih still distinct names.put)
  | @operand text settings operands words plain rest ih =>
    have still : ∀ setting ∈ settings, setting.Missing (given.addOperand text) :=
      fun setting member => (missing setting member).addOperand
    -- The settings are still to come where the operand is taken, so it has to move behind them.
    have carried : settings.foldl put (given.addOperand text) =
        (settings.foldl put given).addOperand text :=
      List.foldl_hom (fun given => addOperand given text) fun _ _ => put_addOperand
    rw [List.foldl_cons,← carried]
    exact (Progress.leads_operand plain names.head).append (ih still distinct names.tail)

theorem foldl_put_perm {others : List Setting} (order : settings.Perm others)
    (distinct : (settings.map Setting.flag).Nodup) :
    settings.foldl put given = others.foldl put given := by
  refine order.foldl_eq' (fun setting member other among given => ?_) given
  by_cases same : setting = other
  · rw [same]
  · exact put_comm fun flags => same (List.inj_on_of_nodup_map distinct member among flags)

theorem foldl_addOperand (tables : List Text) (given : Arguments)
    (named : given.destination ≠ .none) :
    tables.foldl addOperand given = { given with tables := given.tables ++ tables } := by
  induction tables generalizing given with
  | nil => rw [List.append_nil,List.foldl_nil]
  | cons table rest ih =>
    rw [List.foldl_cons,addOperand,if_neg named,
      ih { given with tables := given.tables ++ [table] } named,List.append_assoc]
    rfl

end Arguments

namespace Request
open Arguments

/-- What the options have to say: a number that is not wanted and
a switch that is off are not mentioned. -/
def settings (request : Request) (check verbose : Bool) : List Setting :=
  .columns request.columns :: (request.number.map Setting.number).toList ++
    (if request.withHeading then [] else [.noHeader]) ++ (if check then [.check] else []) ++
    (if verbose then [.verbose] else [])

theorem distinct_settings (request : Request) (check verbose : Bool) :
    ((request.settings check verbose).map Setting.flag).Nodup := by
  obtain ⟨columns,number,destination,tables,withHeading,listed⟩ := request
  cases number <;> cases withHeading <;> cases check <;> cases verbose <;>
    simp [settings,Setting.flag]

theorem foldl_settings (request : Request) (check verbose : Bool) :
    (request.settings check verbose).foldl put .none =
      { request.arguments check verbose with destination := .none,tables := [] } := by
  obtain ⟨columns,number,destination,tables,withHeading,listed⟩ := request
  cases number <;> cases withHeading <;> cases check <;> cases verbose <;> rfl

theorem ofWords_of_line (request : Request) (check verbose : Bool) (named : [] ∉ request.tables)
    {settings : List Setting} {words : List Text}
    (order : settings.Perm (request.settings check verbose))
    (line : CommandLine settings (request.destination :: request.tables) words) :
    ofWords words = .ok (request.arguments check verbose) := by
  have distinct := (order.map Setting.flag).nodup_iff.mpr (request.distinct_settings check verbose)
  have missing : ∀ setting ∈ settings, setting.Missing Arguments.none :=
    fun setting _ => by cases setting <;> rfl
  have leads := line.leads missing distinct named
  have whole : (request.destination :: request.tables).foldl addOperand (settings.foldl put .none) =
      request.arguments check verbose := by
    rw [foldl_put_perm order distinct,foldl_settings]
    exact foldl_addOperand request.tables _ (Option.some_ne_none _)
  have complete : (request.arguments check verbose).Complete :=
    .inr ⟨rfl,⟨_,rfl⟩,⟨_,rfl⟩,request.listed⟩
  rw [ofWords_of_leads leads,whole]
  exact validate_eq_ok_iff.mpr ⟨complete,rfl⟩

/-- Every command line that spells what a single job is asked for with, in whichever
order, is read to the same arguments and to the same job. -/
theorem any_order_describes_same_job (request : Request) (check verbose : Bool)
    (named : [] ∉ request.tables) : ∃ job, request.Means job ∧
    ∀ settings words, settings.Perm (request.settings check verbose) →
      CommandLine settings (request.destination :: request.tables) words →
      ofWords words = .ok (request.arguments check verbose) ∧
        ∀ world, (request.arguments check verbose).jobs world = .ok [job] world := by
  obtain ⟨job,meant,settled⟩ := request.arguments_jobs check verbose
  exact ⟨job,meant,fun settings words order line =>
    ⟨request.ofWords_of_line check verbose named order line,settled⟩⟩

theorem any_order_describes_same_job_split :
    let request : Request := ⟨.layoutVariant,some 7,['o'],[['a'],['-']],false,by decide⟩
    let settings : List Setting := [.verbose,.number 7,.columns .layoutVariant,.noHeader]
    let words := [['o'],"-v".toList,"--number=".toList ++ "007".toList,['a'],"--want".toList,
      "mlvs".toList,['-'],"--no-header".toList]
    [] ∉ request.tables ∧ settings.Perm (request.settings false true) ∧
      CommandLine settings [['o'],['a'],['-']] words ∧
      ofWords words =
        .ok ⟨some .layoutVariant,some 7,true,.none,false,true,some ['o'],[['a'],['-']]⟩ := by
  intro request settings words
  have named : [] ∉ request.tables := by decide
  have order : settings.Perm (request.settings false true) := by decide
  have seven : Numeral.value? 10 "007".toList = some (7 : UInt32).toNat := by decide
  have last : CommandLine [.columns .layoutVariant,.noHeader] [['a'],['-']] _ :=
    .operand nofun
      (.setting (.want .layoutVariant) (.operand (fun _ => rfl) (.setting .noHeader .nil)))
  have line : CommandLine settings [['o'],['a'],['-']] words :=
    .operand nofun (.setting .letter (.setting (.numberAttached (by decide) seven) last))
  obtain ⟨_,_,same⟩ := any_order_describes_same_job request false true named
  exact ⟨named,order,line,(same settings words order line).1⟩

end Request
end LayoutRules
