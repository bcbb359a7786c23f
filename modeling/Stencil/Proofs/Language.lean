import Stencil.Extension
import Stencil.Proofs.Render.Setting

/-!
# Failures of a language

The operators, and the built-in filters and functions, fail over the values they are given, and
there are only so many ways to do that (`Error.IsOverValues`); neither does anything that an
extension adds fail in another way. None of them knows of blocks, for instance, so none fails as the
call of a block that is not there does. A host may of course add a filter that claims just that, so
it is asked of a language that it **spares** blocks.
-/

namespace Stencil

/-- The failures over the values that something is given. -/
inductive Error.IsOverValues : Error → Prop
  | operands (op left right : String) : IsOverValues (.render (.operands op left right))
  | divisionByZero : IsOverValues (.render .divisionByZero)
  | moduloByZero : IsOverValues (.render .moduloByZero)
  | notNegatable (type : String) : IsOverValues (.render (.notNegatable type))
  | notIterable (type : String) : IsOverValues (.render (.notIterable type))
  | numberExpected (filter type : String) : IsOverValues (.render (.numberExpected filter type))
  | badDate (text reason : String) : IsOverValues (.render (.badDate text reason))
  | badTimestamp (seconds : Int64) : IsOverValues (.render (.badTimestamp seconds))
  | notADate (type : String) : IsOverValues (.render (.notADate type))
  | rangeArguments : IsOverValues (.render .rangeArguments)
  | rangeStep : IsOverValues (.render .rangeStep)
  | rangeStepZero : IsOverValues (.render .rangeStepZero)
  | rangeEnds (first last : String) : IsOverValues (.render (.rangeEnds first last))
  | custom (text : String) : IsOverValues (.render (.custom text))
  | datePattern (pattern : String) : IsOverValues (.datePattern pattern)
  | noOrder : IsOverValues .noOrder

/-- Whether a result can only be a failure over values. -/
def OverValues {α : Type} (r : Except Error α) : Prop :=
  ∀ fault, r = .error fault → fault.IsOverValues

namespace OverValues

variable {α β : Type}

theorem ok (x : α) : OverValues (.ok x) :=
  fun _ h => by cases h

theorem error {fault : Error} (h : fault.IsOverValues) :
    OverValues (.error fault : Except Error α) := by
  rintro _ ⟨⟩
  exact h

theorem bind {r : Except Error α} {f : α → Except Error β} (hr : OverValues r)
    (hf : ∀ x, OverValues (f x)) : OverValues (r >>= f) := by
  cases r with
  | error fault => exact error (hr fault rfl)
  | ok x => exact hf x

end OverValues

/-- Whether a result is not the failure of a block. -/
def SparesBlocks {α : Type} (r : Except Error α) : Prop :=
  ∀ fault, r = .error fault → ¬ fault.IsBlockFault

theorem OverValues.sparesBlocks {α : Type} {r : Except Error α} (h : OverValues r) :
    SparesBlocks r := by
  intro fault hr hfault
  cases hfault <;> cases h _ hr

/-! ### Operators -/

namespace Value

theorem overValues_operands (op : String) (a b : Value) : OverValues (operands op a b) := by
  unfold operands
  split
  · exact .ok _
  · exact .error (.operands _ _ _)

theorem overValues_add (a b : Value) : OverValues (a.add b) := by
  unfold add
  split
  · exact .ok _
  · exact .ok _
  · refine (overValues_operands _ _ _).bind fun m => ?_
    split <;> exact .ok _

theorem overValues_sub (a b : Value) : OverValues (a.sub b) := by
  refine (overValues_operands _ _ _).bind fun m => ?_
  split <;> exact .ok _

theorem overValues_mul (a b : Value) : OverValues (a.mul b) := by
  refine (overValues_operands _ _ _).bind fun m => ?_
  split <;> exact .ok _

theorem overValues_divisionOperands (op : String) {fault : RenderFault}
    (h : (Error.render fault).IsOverValues) (a b : Value) :
    OverValues (divisionOperands op fault a b) := by
  refine (overValues_operands _ _ _).bind fun m => ?_
  dsimp only
  split
  · exact .error h
  · exact .ok _

theorem overValues_div (a b : Value) : OverValues (a.div b) := by
  refine (overValues_divisionOperands _ .divisionByZero _ _).bind fun m => ?_
  split
  · split <;> exact .ok _
  · exact .ok _

theorem overValues_floorDiv (a b : Value) : OverValues (a.floorDiv b) := by
  refine (overValues_divisionOperands _ .divisionByZero _ _).bind fun m => ?_
  split <;> exact .ok _

theorem overValues_rem (a b : Value) : OverValues (a.rem b) := by
  refine (overValues_divisionOperands _ .moduloByZero _ _).bind fun m => ?_
  split <;> exact .ok _

theorem overValues_pow (a b : Value) : OverValues (a.pow b) := by
  refine (overValues_operands _ _ _).bind fun m => ?_
  split
  · split
    · split <;> exact .ok _
    · exact .ok _
  · exact .ok _

theorem overValues_neg (v : Value) : OverValues v.neg := by
  unfold neg
  split
  · exact .ok _
  · exact .ok _
  · exact .error (.notNegatable _)

theorem overValues_pairs (v : Value) : OverValues v.pairs := by
  unfold pairs
  split
  · exact .ok _
  · exact .ok _
  · exact .ok _
  · exact .ok _
  · exact .error (.notIterable _)

theorem overValues_range (first last : Value) (step : Option Value) :
    OverValues (range first last step) := by
  have hstep : OverValues (stepOf step) := by
    unfold stepOf
    split
    · exact .ok _
    · split
      · exact .error .rangeStep
      · split
        · exact .error .rangeStepZero
        · exact .ok _
  refine hstep.bind fun n => ?_
  split
  · exact .ok _
  · split
    · exact .ok _
    · exact .error (.rangeEnds _ _)

end Value

theorem UnaryOp.overValues_apply (op : UnaryOp) (v : Value) : OverValues (op.apply v) := by
  cases op with
  | not => exact .ok _
  | neg => exact v.overValues_neg
  | pos => exact (Value.int 0).overValues_add v

theorem BinaryOp.overValues_apply (op : BinaryOp) (a b : Value) : OverValues (op.apply a b) := by
  cases op with
  | add => exact a.overValues_add b
  | sub => exact a.overValues_sub b
  | mul => exact a.overValues_mul b
  | div => exact a.overValues_div b
  | floorDiv => exact a.overValues_floorDiv b
  | rem => exact a.overValues_rem b
  | pow => exact a.overValues_pow b
  | range => exact a.overValues_range b none
  | _ => exact .ok _

/-! ### Languages -/

/-- Whether the filters and functions of a language fail over values only. -/
structure Language.OverValues (l : Language) : Prop where
  filter {name : String} {f : Filter} (h : Table.find? name l.filters = some f) (v : Value)
    (args : List Value) : Stencil.OverValues (f v args)
  function {name : String} {f : Function} (h : Table.find? name l.functions = some f)
    (args : List Value) : Stencil.OverValues (f args)

/-- Whether the filters and functions of a language do not fail as blocks do. -/
structure Language.SparesBlocks (l : Language) : Prop where
  filter {name : String} {f : Filter} (h : Table.find? name l.filters = some f) (v : Value)
    (args : List Value) : Stencil.SparesBlocks (f v args)
  function {name : String} {f : Function} (h : Table.find? name l.functions = some f)
    (args : List Value) : Stencil.SparesBlocks (f args)

/-- Evaluation by itself does not fail as blocks do. -/
theorem Language.SparesBlocks.raises {l : Language} (hl : l.SparesBlocks) {fault : Error}
    (h : l.Raises fault) : ¬ fault.IsBlockFault := by
  cases h with
  | filter hf h => exact hl.filter hf _ _ fault h
  | unary h => exact (UnaryOp.overValues_apply _ _).sparesBlocks fault h
  | binary h => exact (BinaryOp.overValues_apply _ _ _).sparesBlocks fault h
  | pairs h => exact (Value.overValues_pairs _).sparesBlocks fault h
  | _ => exact fun hfault => by cases hfault

namespace Filter

theorem overValues_number (name : String) (v : Value) : OverValues (number name v) := by
  unfold number
  split
  · exact .ok _
  · exact .error (.numberExpected _ _)

theorem overValues_moment (v : Value) : OverValues (moment v) := by
  unfold moment
  split
  · exact .ok _
  · exact .ok _
  · split
    · exact .ok _
    · exact .error (.badDate _ _)
  · split
    · exact .ok _
    · exact .error (.badTimestamp _)
  · exact .error (.notADate _)

theorem overValues_date (v : Value) (args : List Value) : OverValues (date v args) := by
  unfold date
  refine (overValues_moment v).bind fun d => ?_
  split
  · exact .ok _
  · exact .error (.datePattern _)

theorem overValues_round (v : Value) (args : List Value) : OverValues (round v args) := by
  unfold round
  refine (overValues_number _ v).bind fun x => ?_
  dsimp only
  split <;> split <;> exact .ok _

theorem overValues_abs (v : Value) (args : List Value) : OverValues (abs v args) := by
  unfold abs
  split
  · exact .ok _
  · exact (overValues_number _ _).bind fun x => .ok _

theorem overValues_sort (v : Value) (args : List Value) : OverValues (sort v args) := by
  unfold sort
  split
  · split
    · exact .ok _
    · exact .error .noOrder
  · exact .ok _

theorem overValues_join (v : Value) (args : List Value) : OverValues (join v args) := by
  unfold join
  dsimp only
  split <;> exact .ok _

theorem overValues_default (v : Value) (args : List Value) : OverValues (default v args) := by
  unfold default
  split <;> exact .ok _

theorem overValues_reverse (v : Value) (args : List Value) : OverValues (reverse v args) := by
  unfold reverse
  split <;> exact .ok _

theorem overValues_keys (v : Value) (args : List Value) : OverValues (keys v args) := by
  unfold keys
  split <;> exact .ok _

theorem overValues_replace (v : Value) (args : List Value) : OverValues (replace v args) := by
  unfold replace
  dsimp only
  split <;> exact .ok _

/-- Every built-in filter fails over values only. -/
theorem overValues_builtins {name : String} {f : Filter}
    (h : Table.find? name builtins = some f) (v : Value) (args : List Value) :
    OverValues (f v args) := by
  have hmem := Table.mem_of_find?_ofEntries h
  simp only [List.mem_cons, Prod.mk.injEq, List.not_mem_nil, or_false] at hmem
  obtain ⟨-, rfl⟩ | ⟨-, rfl⟩ | ⟨-, rfl⟩ | ⟨-, rfl⟩ | ⟨-, rfl⟩ | ⟨-, rfl⟩ | ⟨-, rfl⟩ | ⟨-, rfl⟩ |
    ⟨-, rfl⟩ | ⟨-, rfl⟩ | ⟨-, rfl⟩ | ⟨-, rfl⟩ | ⟨-, rfl⟩ | ⟨-, rfl⟩ | ⟨-, rfl⟩ | ⟨-, rfl⟩ | ⟨-, rfl⟩ |
    ⟨-, rfl⟩ | ⟨-, rfl⟩ | ⟨-, rfl⟩ | ⟨-, rfl⟩ := hmem
  -- the order is that of the table: changes of the text and the length come first
  iterate 6 exact .ok _
  · exact overValues_join v args
  · exact overValues_default v args
  iterate 3 exact .ok _
  · exact overValues_reverse v args
  iterate 2 exact .ok _
  · exact overValues_keys v args
  · exact overValues_sort v args
  · exact overValues_abs v args
  · exact overValues_round v args
  · exact overValues_replace v args
  · exact overValues_date v args
  · exact .ok _

end Filter

namespace Function

/-- Every built-in function fails over values only. -/
theorem overValues_builtins {name : String} {f : Function}
    (h : Table.find? name builtins = some f) (args : List Value) : OverValues (f args) := by
  have hextreme : ∀ beyond, OverValues (extreme beyond args) := by
    intro beyond
    unfold extreme
    split <;> exact .ok _
  have hmem := Table.mem_of_find?_ofEntries h
  simp only [List.mem_cons, Prod.mk.injEq, List.not_mem_nil, or_false] at hmem
  obtain ⟨-, rfl⟩ | ⟨-, rfl⟩ | ⟨-, rfl⟩ := hmem
  · unfold range
    split
    · exact .error .rangeArguments
    · exact Value.overValues_range _ _ _
    · exact Value.overValues_range _ _ _
    · exact Value.overValues_range _ _ _
  · exact hextreme .lt
  · exact hextreme .gt

end Function

namespace Language.OverValues

/-- The built-in language fails over values only. -/
theorem builtin : ({} : Language).OverValues where
  filter h := Filter.overValues_builtins h
  function h := Function.overValues_builtins h

variable {l : Language} (hl : l.OverValues)

include hl

theorem withTag (name : String) (handler : TagHandler) : (l.withTag name handler).OverValues :=
  { hl with }

theorem withFilter (name : String) {f : Filter} (hf : ∀ v args, Stencil.OverValues (f v args)) :
    (l.withFilter name f).OverValues where
  filter {other g} h := by
    simp only [Language.withFilter, Table.find?_insert] at h
    split at h
    · obtain rfl := Option.some.inj h
      exact hf
    · exact hl.filter h
  function h := hl.function h

theorem withFunction (name : String) {f : Function} (hf : ∀ args, Stencil.OverValues (f args)) :
    (l.withFunction name f).OverValues where
  filter h := hl.filter h
  function {other g} h := by
    simp only [Language.withFunction, Table.find?_insert] at h
    split at h
    · obtain rfl := Option.some.inj h
      exact hf
    · exact hl.function h

theorem addTo (extension : Extension) : (extension.addTo l).OverValues := by
  cases extension with
  | upper => exact hl.withTag _ _
  | endUpper => exact hl.withTag _ _
  | stub => exact hl.withTag _ _
  | bucket =>
    refine hl.withFunction _ fun args => ?_
    unfold Extension.chooseBucket
    split
    · split
      · exact .ok _
      · exact .error (.custom _)
    · exact .error (.custom _)
  | shout => exact hl.withFilter _ fun _ _ => .ok _
  | parent => exact hl.withFunction _ fun _ => .ok _
  | default => exact hl.withFilter _ fun _ _ => .ok _

omit hl in
/-- **The built-in language fails over values only**, whatever extensions it has. -/
theorem ofExtensions (extensions : List Extension) :
    (Language.ofExtensions extensions).OverValues := by
  have hall : ∀ l : Language, l.OverValues → (extensions.foldl Extension.addTo l).OverValues := by
    -- the extensions come in one after the other
    induction extensions with
    | nil => exact fun _ hl => hl
    | cons extension extensions ih => exact fun l hl => ih _ (hl.addTo extension)
  exact hall {} builtin

end Language.OverValues

/-- So it spares blocks. -/
theorem Language.SparesBlocks.ofExtensions (extensions : List Extension) :
    (Language.ofExtensions extensions).SparesBlocks where
  filter h v args := ((Language.OverValues.ofExtensions extensions).filter h v args).sparesBlocks
  function h args := ((Language.OverValues.ofExtensions extensions).function h args).sparesBlocks

end Stencil
