import WorkersAuth.Atomic.Program

/-! Programs that do the same from two related worlds.
Of two programs that each run alone, the second mirrors the first when whatever the first can do from one
world the second can do from a related one, so that answers and worlds are related again. Where every call
is answered alike from related worlds, a program mirrors itself.
-/

namespace Atomic.Program

variable {Op : Type} {Ret : Op → Type} {World α β γ δ : Type}

/-- What the program does from the first of two related worlds its image can do from the second. -/
def Mirrors (exec : Semantics Op Ret World) (related : World → World → Prop) (program : Program Op Ret α)
    (image : Program Op Ret β) (post : α → β → World → World → Prop)
    : Prop :=
  ∀ first second, related first second → ∀ answer last, Evaluates exec program first answer last →
    ∃ other final, Evaluates exec image second other final ∧ post answer other last final

/-- The answers are the same, and the worlds related. -/
def Same (related : World → World → Prop) (answer other : α) (last final : World) : Prop :=
  answer = other ∧ related last final

variable {exec : Semantics Op Ret World} {related other : World → World → Prop}
  {program : Program Op Ret α} {image : Program Op Ret β} {post : α → β → World → World → Prop}

theorem Mirrors.answer {answer : α} {shown : β}
    (holds : ∀ first second, related first second → post answer shown first second)
    : Mirrors exec related (.pure answer) (.pure shown) post := by
  intro first second start result last run
  obtain ⟨rfl, rfl⟩ := evaluates_pure.mp run
  exact ⟨shown, second, evaluates_pure.mpr ⟨rfl, rfl⟩, holds _ _ start⟩

/-- One after the other. -/
theorem Mirrors.bind {rest : α → Program Op Ret γ} {after : β → Program Op Ret δ}
    {final : γ → δ → World → World → Prop} (first : Mirrors exec related program image post)
    (second : ∀ answer shown, Mirrors exec (post answer shown) (rest answer) (after shown) final)
    : Mirrors exec related (program >>= rest) (image >>= after) final := by
  intro world twin start result last run
  obtain ⟨answer, middle, early, late⟩ := evaluates_bind.mp run
  obtain ⟨shown, between, mirrored, holds⟩ := first world twin start answer middle early
  obtain ⟨closing, final, continued, ends⟩ := second answer shown middle between holds result last late
  exact ⟨closing, final, evaluates_bind.mpr ⟨shown, between, mirrored, continued⟩, ends⟩

/-- One after the other, where the first answers do not matter. -/
theorem Mirrors.bind_related (between : World → World → Prop) {rest : α → Program Op Ret γ}
    {after : β → Program Op Ret δ} {final : γ → δ → World → World → Prop}
    (first : Mirrors exec related program image (fun _ _ => between))
    (second : ∀ answer shown, Mirrors exec between (rest answer) (after shown) final)
    : Mirrors exec related (program >>= rest) (image >>= after) final :=
  first.bind second

/-- One after the other, where the first answers are the same. -/
theorem Mirrors.bind_same {image : Program Op Ret α} {rest : α → Program Op Ret γ}
    {after : α → Program Op Ret δ} {final : γ → δ → World → World → Prop}
    (first : Mirrors exec related program image (Same other))
    (second : ∀ answer, Mirrors exec other (rest answer) (after answer) final)
    : Mirrors exec related (program >>= rest) (image >>= after) final := by
  refine first.bind (fun answer shown world twin held => ?_)
  obtain ⟨rfl, start⟩ := held
  exact second answer world twin start

/-- One after the other, where the first answers are found to be the same. -/
theorem Mirrors.bind_eq {image : Program Op Ret α} {middle : α → α → World → World → Prop}
    {rest : α → Program Op Ret γ} {after : α → Program Op Ret δ} {final : γ → δ → World → World → Prop}
    (first : Mirrors exec related program image middle)
    (equal : ∀ answer shown last final, middle answer shown last final → answer = shown)
    (second : ∀ answer, Mirrors exec (middle answer answer) (rest answer) (after answer) final)
    : Mirrors exec related (program >>= rest) (image >>= after) final := by
  refine first.bind (fun answer shown world twin held => ?_)
  obtain rfl := equal answer shown world twin held
  exact second answer world twin held

/-- What the relation says of neither world may be used. -/
theorem Mirrors.given {fact : Prop} (known : ∀ first second, related first second → fact)
    (mirrors : fact → Mirrors exec related program image post)
    : Mirrors exec related program image post :=
  fun first second start => mirrors (known first second start) first second start

/-- A weaker relation afterwards. -/
theorem Mirrors.mono {weaker : α → β → World → World → Prop} (mirrors : Mirrors exec related program image post)
    (le : ∀ answer shown last final, post answer shown last final → weaker answer shown last final)
    : Mirrors exec related program image weaker := by
  intro first second start answer last run
  obtain ⟨shown, final, mirrored, holds⟩ := mirrors first second start answer last run
  exact ⟨shown, final, mirrored, le _ _ _ _ holds⟩

/-- A stronger relation before. -/
theorem Mirrors.of_related (mirrors : Mirrors exec other program image post)
    (le : ∀ first second, related first second → other first second)
    : Mirrors exec related program image post :=
  fun first second start => mirrors first second (le _ _ start)

-----------------------------------------------------------------------------------------
-- Calls that are answered alike
-----------------------------------------------------------------------------------------

/-- From related worlds the call can be answered alike, and leads to related worlds. -/
def Lockstep (exec : Semantics Op Ret World) (related : World → World → Prop) (op : Op) : Prop :=
  ∀ first second, related first second → ∀ reply last, exec op first reply last →
    ∃ final, exec op second reply final ∧ related last final

/-- A program all of whose calls are answered alike mirrors itself, by induction on the program. -/
theorem Within.mirrors (within : program.Within (Lockstep exec related))
    : Mirrors exec related program program (Same related) := by
  induction program with
  | pure answer => exact .answer (fun first second start => ⟨rfl, start⟩)
  | call op next ih =>
      intro first second start answer last run
      obtain ⟨reply, middle, executes, continues⟩ := evaluates_call.mp run
      obtain ⟨between, mirrored, held⟩ := within.1 first second start reply middle executes
      obtain ⟨shown, final, continued, ends⟩ := ih reply (within.2 reply) middle between held answer last continues
      exact ⟨shown, final, evaluates_call.mpr ⟨reply, between, mirrored, continued⟩, ends⟩

/-- Such a part, then what mirrors the rest. -/
theorem Within.mirrors_bind {rest : α → Program Op Ret γ} {after : α → Program Op Ret δ}
    {final : γ → δ → World → World → Prop} (within : program.Within (Lockstep exec related))
    (later : ∀ answer, Mirrors exec related (rest answer) (after answer) final)
    : Mirrors exec related (program >>= rest) (program >>= after) final :=
  within.mirrors.bind_same later

end Atomic.Program
