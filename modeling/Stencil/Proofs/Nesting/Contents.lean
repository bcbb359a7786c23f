import Mathlib.Logic.Relation
import Stencil.Proofs.Nesting.Steps
import Stencil.Proofs.Render.Parts

/-!
# What programs contain

Which instructions there can be in a compiled program, at any depth, is told by how they come
in. `Tag.Turn` lists what the reading of a piece can do, whatever the tags of the language are.
Almost every instruction comes in alone, or around others that were there already. There are
two exceptions. A transform comes in only if a tag stands for it. And the call of a block comes
in only when the block is opened, be it then written to a segment or into a capture; and no
block that was opened is ever lost.
-/

namespace Stencil

theorem Instr.partsOf_append (is js : List Instr) :
    Instr.partsOf (is ++ js) = Instr.partsOf is ++ Instr.partsOf js := by
  induction is with
  | nil => rfl
  | cons i is ih => rw [List.cons_append, partsOf, ih, partsOf, List.append_assoc]

theorem Instr.branchParts_append (bs cs : List (Expr × List Instr)) :
    Instr.branchParts (bs ++ cs) = Instr.branchParts bs ++ Instr.branchParts cs := by
  induction bs with
  | nil => rfl
  | cons b bs ih => rw [List.cons_append, branchParts, ih, branchParts, List.append_assoc]

/-- An instruction that neither calls a block nor is a transform. -/
def Instr.IsOrdinary (i : Instr) : Prop :=
  (∀ name, i ≠ .callBlock name) ∧ ∀ t body, i ≠ .transform t body

/-- Whether something holds of all instructions in a program. -/
structure Program.Every (q : Instr → Prop) (p : Program) : Prop where
  main : ∀ i ∈ Instr.partsOf p.main, q i
  block : ∀ b ∈ p.blocks, ∀ i ∈ Instr.partsOf b.2, q i
  body : ∀ m ∈ p.macros, ∀ i ∈ Instr.partsOf m.2.body, q i

/-! ### What reading does -/

/-- The instructions that have been read for an open tag, apart from the body it has now. -/
def OpenTag.parts : OpenTag → List Instr
  | branch done _ => Instr.branchParts done
  | otherwise branches => Instr.branchParts branches
  | loopElse _ _ _ body => Instr.partsOf body
  | _ => []

/-- The transform that an open tag will be. -/
def OpenTag.transform? : OpenTag → Option Transform
  | transform _ t _ => some t
  | _ => none

namespace Tag

/-- What the reading of a piece can do to the accumulator and to the open tags if it goes on. -/
inductive Turn (tags : TagTable) : State → State → Prop
  | write {acc : Accumulator} {o : List OpenTag} {i : Instr} (ordinary : i.IsOrdinary)
    (alone : i.parts = [i]) : Turn tags ⟨acc, o⟩ ⟨acc.write i, o⟩
  | enter {acc : Accumulator} {o : List OpenTag} {tag : OpenTag} (fresh : tag.parts = [])
    (known : ∀ t ∈ tag.transform?, ∃ name closer,
      Table.find? name tags = some (.transform t closer)) :
    Turn tags ⟨acc, o⟩ ⟨acc.enterCapture, tag :: o⟩
  | block {acc : Accumulator} {o : List OpenTag} (name : String) :
    Turn tags ⟨acc, o⟩ ⟨(acc.write (.callBlock name)).enterBlock name, .block name :: o⟩
  | valueBlock {acc : Accumulator} {o : List OpenTag} (name : String) (e : Expr) :
    Turn tags ⟨acc, o⟩
      ⟨(((acc.write (.callBlock name)).enterBlock name).write (.output e)).leave, o⟩
  | macroDef {acc : Accumulator} {o : List OpenTag} (name : String) (params : Params) :
    Turn tags ⟨acc, o⟩ ⟨(acc.setParams name params).enterMacro name, .macroBody name :: o⟩
  | leave {acc : Accumulator} {o : List OpenTag} (tag : OpenTag) :
    Turn tags ⟨acc, tag :: o⟩ ⟨acc.leave, o⟩
  | finish {acc : Accumulator} {o : List OpenTag} {tag : OpenTag} {i : Instr}
    (made : i.IsOrdinary ∨ ∃ t ∈ tag.transform?, ∃ body, i = .transform t body)
    (around : ∀ j ∈ i.parts, j = i ∨ j ∈ tag.parts ∨ j ∈ Instr.partsOf acc.captured) :
    Turn tags ⟨acc, tag :: o⟩ ⟨acc.leave.write i, o⟩
  | next {acc : Accumulator} {o : List OpenTag} {tag next : OpenTag}
    (native : next.transform? = none)
    (around : ∀ j ∈ next.parts, j ∈ tag.parts ∨ j ∈ Instr.partsOf acc.captured) :
    Turn tags ⟨acc, tag :: o⟩ ⟨acc.leave.enterCapture, next :: o⟩

variable {tags : TagTable} {s s' : State}

/-- The body of a condition that is read so far becomes one of its branches. -/
theorem mem_branchParts_concat {done : List (Expr × List Instr)} {cond : Expr}
    {body : List Instr} {j : Instr} (h : j ∈ Instr.branchParts (done ++ [(cond, body)])) :
    j ∈ Instr.branchParts done ∨ j ∈ Instr.partsOf body := by
  simpa [Instr.branchParts_append, Instr.branchParts] using h

/-- What a built-in tag does. -/
theorem turn_of_openBuiltin {b : BuiltinTag} {args : List Token}
    (h : openBuiltin b args s = (.ok (), s')) : Turn tags s s' := by
  obtain ⟨acc, o⟩ := s
  cases b with
  | condition =>
    obtain ⟨cond, -, h₁⟩ := Step.lift_bind_eq_ok.mp h
    cases h₁
    exact .enter rfl fun _ ht => by cases ht
  | loop =>
    obtain ⟨head, -, h₁⟩ := Step.lift_bind_eq_ok.mp h
    cases h₁
    exact .enter rfl fun _ ht => by cases ht
  | set =>
    obtain ⟨⟨name, _ | value⟩, -, h₁⟩ := Step.lift_bind_eq_ok.mp h
    · cases h₁
      exact .enter rfl fun _ ht => by cases ht
    · cases h₁
      exact .write (by simp [Instr.IsOrdinary]) rfl
  | block =>
    obtain ⟨⟨name, rest, _⟩, -, h₁⟩ := Step.lift_bind_eq_ok.mp h
    obtain ⟨_, s₂, ⟨⟩, h₂⟩ := Step.bind_eq_ok.mp h₁
    cases rest with
    | nil =>
      cases h₂
      exact .block name
    | cons t rest =>
      obtain ⟨e, -, rfl⟩ := inBlock_output_eq_ok h₂
      exact .valueBlock name e
  | extend =>
    obtain ⟨e, -, h₁⟩ := Step.lift_bind_eq_ok.mp h
    cases h₁
    exact .write (by simp [Instr.IsOrdinary]) rfl
  | embed =>
    obtain ⟨i, hhead, h₁⟩ := Step.lift_bind_eq_ok.mp h
    cases h₁
    obtain ⟨⟩ := embedHead_eq_ok_iff.mp hhead
    exact .write (by simp [Instr.IsOrdinary]) rfl
  | macroDef =>
    obtain ⟨⟨name, params⟩, -, h₁⟩ := Step.lift_bind_eq_ok.mp h
    cases h₁
    exact .macroDef name params
  | importAs =>
    obtain ⟨i, hhead, h₁⟩ := Step.lift_bind_eq_ok.mp h
    cases h₁
    obtain ⟨⟩ := importHead_eq_ok_iff.mp hhead
    exact .write (by simp [Instr.IsOrdinary]) rfl
  | importNames =>
    obtain ⟨i, hhead, h₁⟩ := Step.lift_bind_eq_ok.mp h
    cases h₁
    obtain ⟨⟩ := importNamesHead_eq_ok_iff.mp hhead
    exact .write (by simp [Instr.IsOrdinary]) rfl

/-- What the end of a tag does. -/
theorem turn_of_closeTag {tag : OpenTag} {term : Terminator} {acc : Accumulator}
    {o : List OpenTag} (h : closeTag tag term ⟨acc, tag :: o⟩ = (.ok (), s')) :
    Turn tags ⟨acc, tag :: o⟩ s' := by
  obtain ⟨body, s₁, ⟨⟩, h₁⟩ := Step.bind_eq_ok.mp h
  cases tag with
  | branch done cond =>
    by_cases hif : term.tag = "endif"
    · simp only [hif, if_true] at h₁
      obtain ⟨_, -, h₂⟩ := Step.lift_bind_eq_ok.mp h₁
      cases h₂
      refine .finish (.inl (by simp [Instr.IsOrdinary])) fun j hj => ?_
      simp only [Instr.parts, Instr.partsOf, List.append_nil, List.mem_cons] at hj
      exact hj.imp_right mem_branchParts_concat
    by_cases helse : term.tag = "else"
    · simp only [helse, if_true] at h₁
      obtain ⟨_, -, h₂⟩ := Step.lift_bind_eq_ok.mp h₁
      cases h₂
      exact .next rfl fun j => mem_branchParts_concat
    simp only [hif, helse, if_false] at h₁
    obtain ⟨next, -, h₂⟩ := Step.lift_bind_eq_ok.mp h₁
    cases h₂
    exact .next rfl fun j => mem_branchParts_concat
  | otherwise branches =>
    obtain ⟨_, -, h₂⟩ := Step.lift_bind_eq_ok.mp h₁
    cases h₂
    refine .finish (.inl (by simp [Instr.IsOrdinary])) fun j hj => ?_
    simpa [Instr.parts, OpenTag.parts] using hj
  | loop key value iterable =>
    obtain ⟨_, -, h₂⟩ := Step.lift_bind_eq_ok.mp h₁
    split at h₂
    · cases h₂
      exact .next rfl fun j hj => .inr hj
    · cases h₂
      refine .finish (.inl (by simp [Instr.IsOrdinary])) fun j hj => ?_
      simp only [Instr.parts, Instr.partsOf, List.append_nil, List.mem_cons] at hj
      exact hj.imp_right .inr
  | loopElse key value iterable first =>
    obtain ⟨_, -, h₂⟩ := Step.lift_bind_eq_ok.mp h₁
    cases h₂
    refine .finish (.inl (by simp [Instr.IsOrdinary])) fun j hj => ?_
    simpa [Instr.parts, OpenTag.parts] using hj
  | capture target =>
    obtain ⟨_, -, h₂⟩ := Step.lift_bind_eq_ok.mp h₁
    cases h₂
    refine .finish (.inl (by simp [Instr.IsOrdinary])) fun j hj => ?_
    simp only [Instr.parts, List.mem_cons] at hj
    exact hj.imp_right .inr
  | block target =>
    obtain ⟨-, rfl⟩ := Step.lift_eq_ok.mp h₁
    exact .leave _
  | macroBody target =>
    obtain ⟨-, rfl⟩ := Step.lift_eq_ok.mp h₁
    exact .leave _
  | transform name t closer =>
    cases h₁
    refine .finish (.inr ⟨t, rfl, _, rfl⟩) fun j hj => ?_
    simp only [Instr.parts, List.mem_cons] at hj
    exact hj.imp_right .inr

/-- **Whatever the tags are**, the reading of a piece does something on the list. -/
theorem turn_of_readPiece {p : Piece} (h : readPiece tags p s = (.ok none, s')) :
    Turn tags s s' := by
  cases p with
  | text t =>
    cases h
    exact .write (by simp [Instr.IsOrdinary]) rfl
  | output tokens =>
    obtain ⟨e, -, h₁⟩ := Step.lift_bind_eq_ok.mp h
    cases h₁
    exact .write (by simp [Instr.IsOrdinary]) rfl
  | tag tokens =>
    cases tokens with
    | nil => cases h
    | cons t args =>
      by_cases kind : t.kind = .identifier
      · cases hfind : Table.find? t.text tags with
        | none =>
          simp only [readPiece, readTag, kind, hfind] at h
          cases h
        | some handler =>
          cases handler with
          | builtin b =>
            simp only [readPiece, readTag, kind, hfind] at h
            obtain ⟨_, s₁, hopen, h₁⟩ := Step.bind_eq_ok.mp h
            cases h₁
            exact turn_of_openBuiltin hopen
          | terminator =>
            simp only [readPiece, readTag, kind, hfind] at h
            obtain ⟨acc, o⟩ := s
            obtain ⟨tag, o, rfl, -, hclose⟩ := meetTerminator_eq_ok_none_iff.mp h
            exact turn_of_closeTag hclose
          | transform change closer =>
            simp only [readPiece, readTag, kind, hfind] at h
            obtain ⟨_, -, h₁⟩ := Step.lift_bind_eq_ok.mp h
            cases h₁
            refine .enter rfl fun t' ht => ?_
            cases ht
            exact ⟨t.text, closer, hfind⟩
          | constant text =>
            simp only [readPiece, readTag, kind, hfind] at h
            cases h
            exact .write (by simp [Instr.IsOrdinary]) rfl
      · simp only [readPiece, readTag, ne_eq, kind, not_false_eq_true, if_true] at h
        cases h

end Tag

/-! ### What stays -/

/-- Whether every block of one accumulator is one of another. -/
def Accumulator.Grows (a a' : Accumulator) : Prop :=
  ∀ name, (Table.find? name a.blocks).isSome → (Table.find? name a'.blocks).isSome

namespace Accumulator

theorem Grows.trans {a a' a'' : Accumulator} (h : a.Grows a') (h' : a'.Grows a'') :
    a.Grows a'' :=
  fun name hname => h' name (h name hname)

theorem isSome_append {name other : String} {more : List Instr} {t : Table (List Instr)}
    (h : (Table.find? other t).isSome ∨ other = name) :
    (Table.find? other (append name more t)).isSome := by
  rw [append, Table.find?_insert]
  split
  next => rfl
  next hne => exact h.resolve_right hne

/-- Writing loses no block. -/
theorem grows_write (i : Instr) (a : Accumulator) : a.Grows (a.write i) := by
  intro name hname
  unfold write
  split
  · exact hname
  · exact isSome_append (.inl hname)
  · exact hname
  · exact hname

theorem grows_enterBlock (name : String) (a : Accumulator) : a.Grows (a.enterBlock name) :=
  fun _ hother => isSome_append (.inl hother)

theorem isSome_enterBlock (name : String) (a : Accumulator) :
    (Table.find? name (a.enterBlock name).blocks).isSome :=
  isSome_append (.inr rfl)

/-- Whether something holds of all instructions that have been written. -/
structure Every (q : Instr → Prop) (a : Accumulator) : Prop where
  main : ∀ i ∈ Instr.partsOf a.main, q i
  block : ∀ b ∈ a.blocks, ∀ i ∈ Instr.partsOf b.2, q i
  body : ∀ m ∈ a.macros, ∀ i ∈ Instr.partsOf m.2, q i
  frame : ∀ written, .capture written ∈ a.frames → ∀ i ∈ Instr.partsOf written, q i

variable {q : Instr → Prop} {a : Accumulator}

theorem every_append {name : String} {more : List Instr} {t : Table (List Instr)}
    (h : ∀ b ∈ t, ∀ i ∈ Instr.partsOf b.2, q i) (hmore : ∀ i ∈ Instr.partsOf more, q i) :
    ∀ b ∈ append name more t, ∀ i ∈ Instr.partsOf b.2, q i := by
  intro b hb i hi
  rcases Table.mem_insert hb with rfl | hb
  · rw [Instr.partsOf_append] at hi
    rcases List.mem_append.mp hi with hi | hi
    · cases hold : Table.find? name t with
      | none => simp [hold, Instr.partsOf] at hi
      | some old =>
        rw [hold] at hi
        exact h _ (Table.mem_of_find? hold) i hi
    · exact hmore i hi
  · exact h b hb i hi

theorem Every.write {i : Instr} (h : a.Every q) (hi : ∀ j ∈ i.parts, q j) :
    (a.write i).Every q := by
  have hlast : ∀ is, (∀ j ∈ Instr.partsOf is, q j) → ∀ j ∈ Instr.partsOf (is ++ [i]), q j := by
    intro is his j hj
    rw [Instr.partsOf_append] at hj
    rcases List.mem_append.mp hj with hj | hj
    · exact his j hj
    · exact hi j (by simpa [Instr.partsOf] using hj)
  have hone : ∀ j ∈ Instr.partsOf [i], q j := hlast [] fun _ hj => by cases hj
  unfold Accumulator.write
  split
  next => exact { h with main := hlast _ h.main }
  next => exact { h with block := every_append h.block hone }
  next => exact { h with body := every_append h.body hone }
  next written outer hframes =>
    have hwritten := hlast written (h.frame written (by simp [hframes]))
    refine { h with frame := fun w hw => ?_ }
    rcases List.mem_cons.mp hw with hw | hw
    · cases hw
      exact hwritten
    · exact h.frame w (by simp [hframes, hw])

theorem Every.enterBlock (h : a.Every q) (name : String) : (a.enterBlock name).Every q where
  main := h.main
  block := every_append h.block fun _ hi => by cases hi
  body := h.body
  frame w hw := h.frame w (by simpa [Accumulator.enterBlock] using hw)

theorem Every.enterMacro (h : a.Every q) (name : String) : (a.enterMacro name).Every q where
  main := h.main
  block := h.block
  body := every_append h.body fun _ hi => by cases hi
  frame w hw := h.frame w (by simpa [Accumulator.enterMacro] using hw)

theorem Every.enterCapture (h : a.Every q) : a.enterCapture.Every q := by
  refine { h with frame := fun w hw => ?_ }
  rcases List.mem_cons.mp hw with hw | hw
  · cases hw
    exact fun _ hi => by cases hi
  · exact h.frame w hw

theorem Every.leave (h : a.Every q) : a.leave.Every q :=
  { h with frame := fun w hw => h.frame w (List.mem_of_mem_tail hw) }

/-- What the innermost place has captured was written. -/
theorem Every.captured (h : a.Every q) : ∀ i ∈ Instr.partsOf a.captured, q i := by
  unfold Accumulator.captured
  split
  next written outer hframes => exact h.frame written (by simp [hframes])
  next => exact fun _ hi => by cases hi

theorem Every.finish (h : a.Every q) : a.finish.Every q where
  main := h.main
  block := h.block
  body m hm := by
    obtain ⟨m', hm', rfl⟩ := List.mem_map.mp hm
    exact h.body m' hm'

end Accumulator

/-- Whether something holds of all instructions that tags stand for, calls of blocks aside. -/
structure TagTable.Brings (q : Instr → Prop) (tags : TagTable) : Prop where
  ordinary {i : Instr} (h : i.IsOrdinary) : q i
  transform {name closer : String} {t : Transform}
    (h : Table.find? name tags = some (.transform t closer)) (body : List Instr) :
    q (.transform t body)

namespace Tag

/-- Whether something holds of all instructions that have been read. -/
structure State.Every (q : Instr → Prop) (s : State) : Prop where
  acc : s.acc.Every q
  opened : ∀ tag ∈ s.opened, (∀ i ∈ tag.parts, q i) ∧
    ∀ t ∈ tag.transform?, ∀ body, q (.transform t body)

variable {tags : TagTable} {q : Instr → Prop} {s s' : State}

/-- No block is lost. -/
theorem Turn.grows (h : Turn tags s s') : s.acc.Grows s'.acc := by
  cases h with
  | write => exact Accumulator.grows_write _ _
  | enter => exact fun _ hname => hname
  | block name =>
    exact (Accumulator.grows_write _ _).trans (Accumulator.grows_enterBlock name _)
  | valueBlock name e =>
    exact ((Accumulator.grows_write _ _).trans (Accumulator.grows_enterBlock name _)).trans
      (Accumulator.grows_write (.output e) _)
  | macroDef => exact fun _ hname => hname
  | leave => exact fun _ hname => hname
  | finish => exact fun name hname => Accumulator.grows_write _ _ name hname
  | next => exact fun _ hname => hname

/-- **One step of the reading**: what held of all instructions still holds if it holds of those
that the tags stand for and of the calls of all blocks that there are now. -/
theorem Turn.every (h : Turn tags s s') (htags : tags.Brings q)
    (hcall : ∀ name, (Table.find? name s'.acc.blocks).isSome → q (.callBlock name))
    (hs : s.Every q) : s'.Every q := by
  have hnew : ∀ {tag : OpenTag} {o : List OpenTag}, s.opened = o → tag.parts = [] →
      (∀ t ∈ tag.transform?, ∀ body, q (.transform t body)) →
      ∀ tag' ∈ tag :: o, (∀ i ∈ tag'.parts, q i) ∧
        ∀ t ∈ tag'.transform?, ∀ body, q (.transform t body) := by
    rintro tag _ rfl hparts htransform
    refine List.forall_mem_cons.mpr ⟨⟨fun i hi => ?_, htransform⟩, hs.opened⟩
    rw [hparts] at hi
    cases hi
  cases h with
  | write ordinary alone =>
    refine ⟨hs.acc.write fun j hj => ?_, hs.opened⟩
    rw [alone, List.mem_singleton] at hj
    exact hj ▸ htags.ordinary ordinary
  | enter fresh known =>
    refine ⟨hs.acc.enterCapture, hnew rfl fresh fun t ht => ?_⟩
    obtain ⟨name, closer, hfind⟩ := known t ht
    exact htags.transform hfind
  | block name =>
    have hq := hcall name (Accumulator.isSome_enterBlock name _)
    refine ⟨(hs.acc.write fun j hj => ?_).enterBlock name, hnew rfl rfl fun _ ht => by cases ht⟩
    exact List.mem_singleton.mp hj ▸ hq
  | valueBlock name e =>
    have hq := hcall name (Accumulator.grows_write (.output e) _ name
      (Accumulator.isSome_enterBlock name _))
    have hopened := (hs.acc.write (i := .callBlock name)
      fun j hj => List.mem_singleton.mp hj ▸ hq).enterBlock name
    refine ⟨(hopened.write fun j hj => ?_).leave, hs.opened⟩
    exact List.mem_singleton.mp hj ▸ htags.ordinary (by simp [Instr.IsOrdinary])
  | macroDef name params =>
    have hparams : (Accumulator.setParams name params _).Every q := { hs.acc with }
    exact ⟨hparams.enterMacro name, hnew rfl rfl fun _ ht => by cases ht⟩
  | leave tag => exact ⟨hs.acc.leave, fun tag ht => hs.opened tag (List.mem_cons_of_mem _ ht)⟩
  | @finish acc o tag i made around =>
    obtain ⟨htag, ho⟩ := List.forall_mem_cons.mp hs.opened
    refine ⟨hs.acc.leave.write fun j hj => ?_, ho⟩
    rcases around j hj with rfl | hj | hj
    · rcases made with ordinary | ⟨t, ht, body, rfl⟩
      · exact htags.ordinary ordinary
      · exact htag.2 t ht body
    · exact htag.1 j hj
    · exact hs.acc.captured j hj
  | @next acc o tag next native around =>
    obtain ⟨htag, ho⟩ := List.forall_mem_cons.mp hs.opened
    refine ⟨hs.acc.leave.enterCapture, List.forall_mem_cons.mpr ⟨⟨fun j hj => ?_, ?_⟩, ho⟩⟩
    · rcases around j hj with hj | hj
      · exact htag.1 j hj
      · exact hs.acc.captured j hj
    · intro t ht
      rw [native] at ht
      cases ht

/-- The reading of all pieces is one step after the other. -/
theorem turns_of_readFrom {pieces : List Piece} {hasRemaining : Bool}
    (h : (readFrom tags s pieces).result = .ok ⟨none, hasRemaining⟩) :
    Relation.ReflTransGen (Turn tags) s ⟨(readFrom tags s pieces).acc, []⟩ := by
  induction pieces generalizing s with
  | nil =>
    obtain ⟨acc, o⟩ := s
    cases o with
    | nil => exact .refl
    | cons tag o => cases h
  | cons piece rest ih =>
    rw [readFrom] at h ⊢
    split at h
    · cases h
    · cases h
    next s₁ hread =>
      exact .head (turn_of_readPiece hread) (ih h)

/-- What holds of all instructions is kept by all steps of the reading. -/
theorem every_of_turns (h : Relation.ReflTransGen (Turn tags) s s') (htags : tags.Brings q)
    (hcall : ∀ name, (Table.find? name s'.acc.blocks).isSome → q (.callBlock name))
    (hs : s.Every q) : s'.Every q := by
  have hgrows : ∀ {s₁}, Relation.ReflTransGen (Turn tags) s₁ s' → s₁.acc.Grows s'.acc := by
    intro s₁ h₁
    induction h₁ using Relation.ReflTransGen.head_induction_on with
    | refl => exact fun _ hname => hname
    | head hturn _ ih => exact hturn.grows.trans ih
  induction h using Relation.ReflTransGen.head_induction_on with
  | refl => exact hs
  -- the blocks of the moment are among those of the end
  | head hturn hrest ih =>
    exact ih (hturn.every htags (fun name hname => hcall name (hgrows hrest name hname)) hs)

end Tag

/-- **What a compiled program contains**: something holds of all its instructions if it holds of
those that the tags stand for and of the calls of its own blocks. -/
theorem Program.every_of_ofPieces {tags : TagTable} {pieces : List Piece} {p : Program}
    {q : Instr → Prop} (h : Program.ofPieces tags pieces = .ok p) (htags : tags.Brings q)
    (hcall : ∀ name, (Table.find? name p.blocks).isSome → q (.callBlock name)) : p.Every q := by
  rw [Program.ofPieces] at h
  split at h
  next => cases h
  next o hresult =>
    split at h
    next => cases h
    next hterminator =>
      obtain rfl := Except.ok.inj h
      obtain ⟨terminator, hasRemaining⟩ := o
      obtain rfl : terminator = none := hterminator
      have hempty : Tag.State.Every q ⟨{}, []⟩ := by
        refine ⟨⟨?_, ?_, ?_, ?_⟩, ?_⟩ <;> simp [Instr.partsOf]
      have hturns := Tag.turns_of_readFrom hresult
      exact (Tag.every_of_turns hturns htags hcall hempty).acc.finish

end Stencil
