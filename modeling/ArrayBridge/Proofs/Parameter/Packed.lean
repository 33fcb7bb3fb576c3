import ArrayBridge.Proofs.Parameter

/-!
The two ways to give the values of a statement: listed as arguments, or packed into one cell array. Both fill the
slots alike, and a cell array is opened one level deep.
-/
namespace ArrayBridge.Parameter

/-- The values that arguments give. A cell array with other arguments behind it gives none. -/
inductive Gives : List HostValue → List HostValue → Prop
  | listed {values : List HostValue} : (∀ items rest, values ≠ .cell items :: rest) → Gives values values
  | packed (values : List HostValue) : Gives [.cell values] values

variable {slots : Nat} {args args' values : List HostValue}

theorem resolve_zero (args : List HostValue) :
    resolve 0 args = if args = [] then .ok [] else .error (.unexpectedArguments 0 args.length) := by
  cases args with
  | nil => rfl
  | cons v rest => rfl

theorem resolve_mixed (slots : Nat) (items : List HostValue) (v : HostValue) (rest : List HostValue) :
    resolve slots (.cell items :: v :: rest) = .error (.unexpectedArguments (min slots 1) (rest.length + 2)) := by
  cases slots with
  | zero => rfl
  | succ n =>
      rw [Nat.min_eq_right (Nat.succ_le_succ (Nat.zero_le n)), resolve, if_neg (fun hzero => absurd hzero.1 n.succ_ne_zero)]
      rfl

/-- The last check, the same for listed and packed values. -/
theorem fit_eq (slots : Nat) (values : List HostValue) :
    (do
      if values.length > slots then throw (.unexpectedArguments slots values.length)
      return values : Except BridgeError (List HostValue)) =
      if values.length ≤ slots then .ok values else .error (.unexpectedArguments slots values.length) := by
  by_cases hle : values.length ≤ slots
  · rw [if_neg (Nat.not_lt.mpr hle), if_pos hle]
    rfl
  · rw [if_pos (Nat.not_le.mp hle), if_neg hle]
    rfl

theorem resolve_of_gives (h : Gives args values) (hpos : 0 < slots) :
    resolve slots args =
      if values.length ≤ slots then .ok values else .error (.unexpectedArguments slots values.length) := by
  have hsome : ¬(slots = 0 ∧ args ≠ []) := fun hzero => absurd hzero.1 (Nat.ne_of_gt hpos)
  rw [← fit_eq, resolve, if_neg hsome]
  cases h with
  | packed => rfl
  | listed hfirst =>
      cases args with
      | nil => rfl
      | cons v rest =>
          cases v with
          | cell items => exact absurd rfl (hfirst items rest)
          | numeric _ | text _ | complex _ _ | struct _ | object _ => rfl

theorem runOn_fill_congr {held : List Cell} (h : resolve held.length args = resolve held.length args')
    (config : Config) : (fill args config).runOn held = (fill args' config).runOn held := by
  rw [runOn_fill, runOn_fill, h]

theorem bindAll_congr (h : resolve slots args = resolve slots args') (config : Config) :
    bindAll slots args config = bindAll slots args' config := by
  have hnull : resolve (List.replicate slots Cell.null).length args =
      resolve (List.replicate slots Cell.null).length args' := by
    rw [List.length_replicate, h]
  rw [bindAll, bindAll, runOn_fill_congr hnull config]

/-- Values fill the slots alike whether they are listed or packed in a cell. What a packed cell holds is taken as it is,
cells included. Without a slot every argument is too many, and a cell that comes first has to come alone. -/
theorem resolve_packed :
    (∀ slots values, 0 < slots →
        resolve slots [.cell values] =
          if values.length ≤ slots then .ok values else .error (.unexpectedArguments slots values.length)) ∧
      (∀ slots values, 0 < slots → (∀ items rest, values ≠ .cell items :: rest) →
        resolve slots values = resolve slots [.cell values] ∧
          (∀ held config, held.length = slots →
            (fill values config).runOn held = (fill [.cell values] config).runOn held) ∧
          ∀ config, bindAll slots values config = bindAll slots [.cell values] config) ∧
      (∀ slots items, 0 < slots → resolve slots [.cell [.cell items]] = .ok [.cell items]) ∧
      (∀ args, (∃ e, resolve 0 args = .error e) ↔ args ≠ []) ∧
      ∀ slots items v rest, ∃ e, resolve slots (.cell items :: v :: rest) = .error e := by
  refine ⟨fun slots values hpos => resolve_of_gives (.packed values) hpos, ?_, ?_, ?_, ?_⟩
  · intro slots values hpos hfirst
    have hsame : resolve slots values = resolve slots [.cell values] :=
      (resolve_of_gives (.listed hfirst) hpos).trans (resolve_of_gives (.packed values) hpos).symm
    refine ⟨hsame, ?_, bindAll_congr hsame⟩
    rintro held config rfl
    exact runOn_fill_congr hsame config
  · intro slots items hpos
    have hone : [HostValue.cell items].length ≤ slots := hpos
    rw [resolve_of_gives (.packed _) hpos, if_pos hone]
  · intro args
    rw [resolve_zero]
    by_cases hnil : args = []
    · rw [if_pos hnil]
      exact iff_of_false nofun fun hne => hne hnil
    · rw [if_neg hnil]
      exact iff_of_true ⟨_, rfl⟩ hnil
  · intro slots items v rest
    exact ⟨_, resolve_mixed slots items v rest⟩

/-- Two values for two slots and for one, and a cell in a cell. -/
theorem resolve_packed_two :
    resolve 2 [.ofText "a", .cell []] = resolve 2 [.cell [.ofText "a", .cell []]] ∧
      resolve 1 [.cell [.ofText "a", .cell []]] = .error (.unexpectedArguments 1 2) ∧
      bindAll 2 [.ofText "a", .cell []] {} = bindAll 2 [.cell [.ofText "a", .cell []]] {} ∧
      resolve 1 [.cell [.cell [.ofText "a", .ofText "b"]]] = .ok [.cell [.ofText "a", .ofText "b"]] := by
  obtain ⟨hpacked, hlisted, hinner, -, -⟩ := resolve_packed
  have hfirst : ∀ items rest, [HostValue.ofText "a", .cell []] ≠ .cell items :: rest := nofun
  obtain ⟨hsame, -, hbind⟩ := hlisted 2 _ (by decide) hfirst
  exact ⟨hsame, hpacked 1 _ (by decide), hbind {}, hinner 1 _ (by decide)⟩

end ArrayBridge.Parameter
