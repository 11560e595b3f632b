import FighterData.Proofs.EntryArray.Slots

/-! Reading an array is finding its plan. The slots are followed from the last one to the first, and
each slot either repeats the entry of the one before it or opens a run. -/
namespace FighterData.EntryArray

variable {π α : Type} [Piece π α] {buffer : Buffer} {entry : Reader α} {what gap : String}
  {length : Int} {padding place stop : Nat}

/-- The slots behind the first one of a run, when that slot had this offset and value. They repeat
the entry up to the next other offset, and from there on the buffer carries further runs. -/
def Continued (π : Type) [Piece π α] (buffer : Buffer) (base padding stop : Nat) (offset : Int)
    (a : α) (rest : List Int) (values : List α) : Prop :=
  ∃ copies next, ∃ runs : List (Run π),
    rest = List.replicate copies offset ++ Run.offsetsFrom next runs ∧
    values = List.replicate copies a ++ runs.flatMap Run.values ∧
    match rest.find? (· ≠ offset) with
    | none => runs = []
    | some other => other = next ∧ ∃ before after, buffer.Carries (base + next) stop
        (runs.flatMap Run.bytes ++ Bytes.trailer padding before after)

theorem Continued.exists_runs {base start middle offset : Nat} {piece : π} {rest : List Int}
    {values : List α} (begins : start = base + offset)
    (carried : buffer.Carries start middle (Piece.bytes piece))
    (closed : Closed buffer base padding middle stop (rest.find? (· ≠ (offset : Int))))
    (inside : stop ≤ buffer.size)
    (more : Continued π buffer base padding stop offset (Piece.value piece) rest values) :
    ∃ (runs : List (Run π)) (before after : Nat),
      (offset : Int) :: rest = Run.offsetsFrom offset runs ∧
      Piece.value piece :: values = runs.flatMap Run.values ∧
      buffer.Carries start stop
        (runs.flatMap Run.bytes ++ Bytes.trailer padding before after) := by
  obtain ⟨copies, next, runs, offsets, shown, further⟩ := more
  have size := carried.stop_eq
  cases other : rest.find? (· ≠ (offset : Int)) with
  | none =>
      rw [other] at further closed
      obtain ⟨before, after, filling⟩ := closed inside
      refine ⟨[⟨piece, copies, 0⟩], before, after, ?_, ?_, ?_⟩
      · rw [offsets, further]
        simp [Run.offsetsFrom, List.replicate_succ]
      · rw [shown, further]
        simp [Run.values, List.replicate_succ]
      · have alone : Run.bytes ⟨piece, copies, 0⟩ = Piece.bytes piece := by
          simp [Run.bytes, Bytes.filled]
        simpa [alone] using carried.append filling
  | some found =>
      rw [other] at further closed
      obtain ⟨rfl, before, after, tail⟩ := further
      have reached : base + next ≤ buffer.size := Nat.le_trans tail.start_le inside
      obtain ⟨zeros, filling⟩ := closed (base + next) (by simp) reached
      have whole := carried.append filling
      have length := whole.stop_eq
      simp only [List.length_append, Bytes.length_filled] at length
      have extent : (Run.bytes ⟨piece, copies, zeros⟩).length =
          (Piece.bytes piece).length + zeros := Run.length_bytes _
      have place : offset + (Run.bytes ⟨piece, copies, zeros⟩).length = next := by omega
      refine ⟨⟨piece, copies, zeros⟩ :: runs, before, after, ?_, ?_, ?_⟩
      · rw [offsets, Run.offsetsFrom, place]
        simp [List.replicate_succ]
      · rw [shown]
        simp [Run.values, List.replicate_succ]
      · have joined := whole.append tail
        rw [← List.append_assoc] at joined
        exact joined

theorem continued_of_gives {base start middle : Nat} {offsets front rest : List Int} {offset : Int}
    {a : α} {values : List α} (pieces : entry.ReadsPieces π) (positive : 0 < padding)
    (split : offsets = front ++ offset :: rest) (ends : base + length = stop)
    (bounded : ∀ offset ∈ offsets, PointerTable.IsOffset offset)
    (inside : stop ≤ buffer.size) (begins : base + offset = start)
    (read : entry.Reads buffer start a middle)
    (given : (Reader.forEach (slotReader base padding offsets length entry what gap)
        (List.range' (front.length + 1) rest.length)).Gives buffer place values) :
    Continued π buffer base padding stop offset a rest values := by
  induction rest generalizing front offset start middle a values place with
  | nil =>
      obtain ⟨_, done⟩ := given
      obtain ⟨rfl, _⟩ := Reader.reads_forEach_nil_iff.mp done
      exact ⟨0, 0, [], rfl, rfl, rfl⟩
  | cons next rest ih =>
      rw [List.length_cons, List.range'_succ] at given
      obtain ⟨_, done⟩ := given
      obtain ⟨b, others, behind, rfl, slot, further⟩ := Reader.reads_forEach_cons_iff.mp done
      have moved : offsets = (front ++ [offset]) ++ next :: rest := by simp [split]
      have count : (front ++ [offset]).length = front.length + 1 := by simp
      rw [← count] at slot further
      obtain ⟨second, ending, opens, again, closing⟩ :=
        exists_of_gives_readSlot _ positive moved ends slot.gives
      have more := ih moved opens again further.gives
      have last : (front ++ [offset]).getLast? = some offset := List.getLast?_concat
      by_cases same : next = offset
      · -- the slot repeats the entry, and a read at one place gives one value
        rw [same] at opens more
        have position : second = start := by omega
        rw [position] at again
        obtain rfl := again.gives.unique read.gives
        obtain ⟨copies, following, runs, offsetsEq, valuesEq, tail⟩ := more
        refine ⟨copies + 1, following, runs, ?_, ?_, ?_⟩
        · rw [same, offsetsEq, List.replicate_succ, List.cons_append]
        · rw [valuesEq, List.replicate_succ, List.cons_append]
        · rw [same]
          simpa using tail
      · -- the slot opens a new run, so it has checked what stands behind its entry
        have own : Closed buffer base padding ending stop (rest.find? (· ≠ next)) := by
          cases closing with
          | inl shared =>
              rw [last] at shared
              exact absurd (Option.some.inj shared).symm same
          | inr closed => exact closed
        have bounds := bounded next (by simp [moved])
        obtain ⟨number, rfl⟩ := Int.eq_ofNat_of_zero_le bounds.1
        obtain ⟨piece, rfl, carried⟩ := pieces.mp again
        have placed : second = base + number := by omega
        obtain ⟨runs, before, after, offsetsEq, valuesEq, tail⟩ :=
          more.exists_runs placed carried own inside
        have first : ((number : Int) :: rest).find? (· ≠ offset) = some (number : Int) := by
          simp [same]
        rw [placed] at tail
        refine ⟨0, number, runs, by simpa using offsetsEq, by simpa using valuesEq, ?_⟩
        rw [first]
        exact ⟨rfl, before, after, tail⟩

/-- The runs of the offsets make a plan, and the table in front of them belongs to it. -/
theorem exists_plan_of_runs {start before after : Nat} {offsets : List Int} {runs : List (Run π)}
    (fits : PointerTable.Fits offsets padding) (some : runs ≠ [])
    (spelled : start + 4 * offsets.length + padding ≤ buffer.size →
      buffer.Carries start (start + 4 * offsets.length + padding)
        (PointerTable.spell .little offsets padding))
    (number : Nat) (split : offsets = Run.offsetsFrom number runs) (inside : stop ≤ buffer.size)
    (tail : buffer.Carries (start + number) stop
      (runs.flatMap Run.bytes ++ Bytes.trailer padding before after)) :
    ∃ plan : Plan π, plan.runs = runs ∧ plan.offsets = offsets ∧
      buffer.Carries start stop (Piece.bytes plan) := by
  have count : offsets.length = (runs.flatMap Run.values).length := by
    rw [split, Run.length_offsetsFrom]
  have size : number = 4 * (runs.flatMap Run.values).length + padding := by
    have head : (number : Int) ∈ offsets.head? := by
      rw [split]
      cases runs with
      | nil => exact absurd rfl some
      | cons run rest => simp [Run.offsetsFrom, List.replicate_succ]
    have first := fits.first number head
    rw [count] at first
    omega
  have bounded : ∀ offset ∈ Run.offsetsFrom (4 * (runs.flatMap Run.values).length + padding) runs,
      PointerTable.IsOffset offset := by
    rw [← size, ← split]
    exact fits.bounded
  let plan : Plan π := ⟨runs, padding, before, after, fits.room, fun none => absurd none some,
    bounded⟩
  have planned : plan.offsets = offsets := by
    rw [split, size]
    rfl
  refine ⟨plan, rfl, planned, ?_⟩
  have ending : start + 4 * offsets.length + padding = start + number := by
    rw [size, count]
    omega
  have reached := Nat.le_trans tail.start_le inside
  rw [ending] at spelled
  have joined := (spelled reached).append tail
  rw [← planned, ← List.append_assoc] at joined
  exact joined

/-- An array that is read up to an end inside the buffer is carried there as some plan. -/
theorem exists_plan_of_gives {first : Int} {result : List α × List Int}
    (pieces : entry.ReadsPieces π) (solid : ∀ piece : π, 0 < (Piece.bytes piece).length)
    (inside : stop ≤ buffer.size)
    (given : (read first stop entry what gap).Gives buffer place result) :
    ∃ (start : Nat) (plan : Plan π), first = start ∧ Piece.value plan = result ∧
      buffer.Carries start stop (Piece.bytes plan) := by
  simp only [read, Reader.gives_bind_iff] at given
  obtain ⟨table, middle, tabled, given⟩ := given
  obtain ⟨start, padding, rfl, shape, fits, _, _, spelled⟩ := PointerTable.exists_of_reads tabled
  rw [shape] at given
  have positive : 0 < padding := by have room := fits.room; omega
  cases offsets : table.offsets with
  | nil =>
      simp only [offsets, List.isEmpty_nil, if_true, Reader.gives_bind_iff] at given
      obtain ⟨_, _, checked, _, done⟩ := given
      obtain ⟨rfl, _⟩ := Reader.reads_pure_iff.mp done
      have begins : PointerTable.size ⟨start, [], padding⟩ = (padding : Int) := by
        simp [PointerTable.size]
      have place : (start : Int) + PointerTable.size ⟨start, [], padding⟩
          = (start + padding : Nat) := by
        rw [begins]
        simp
      obtain ⟨_, before, after, trailer⟩ :=
        (Reader.reads_expectTrailer_inside_iff positive place rfl inside).mp checked
      have reached := Nat.le_trans trailer.start_le inside
      rw [offsets] at spelled fits
      have front := spelled (by simpa using reached)
      refine ⟨start, ⟨[], padding, before, after, fits.room, fun _ => fits.empty rfl, ?_⟩, rfl, ?_,
        ?_⟩
      · simp [Run.offsetsFrom]
      · rfl
      · have joined := front.append trailer
        simpa [Piece.bytes, Plan.bytes, Plan.offsets, Run.offsetsFrom] using joined
  | cons offset rest =>
      simp only [offsets, List.isEmpty_cons, Bool.false_eq_true, if_false,
        Reader.gives_bind_iff] at given
      obtain ⟨entries, _, slots, _, done⟩ := given
      obtain ⟨rfl, _⟩ := Reader.reads_pure_iff.mp done
      rw [List.length_cons, List.range_eq_range', List.range'_succ] at slots
      obtain ⟨a, others, behind, rfl, slot, more⟩ := Reader.reads_forEach_cons_iff.mp slots
      have ends : (start : Int) + (stop - start) = stop := by omega
      have whole : offset :: rest = [] ++ offset :: rest := rfl
      obtain ⟨opening, ending, begins, read, closing⟩ :=
        exists_of_gives_readSlot [] positive whole ends slot.gives
      have closed : Closed buffer start padding ending stop (rest.find? (· ≠ offset)) := by
        cases closing with
        | inl shared => cases shared
        | inr closed => exact closed
      rw [offsets] at fits spelled
      have continued := continued_of_gives pieces positive whole ends fits.bounded inside begins
        read more.gives
      have bounds := fits.bounded offset (by simp)
      obtain ⟨number, rfl⟩ := Int.eq_ofNat_of_zero_le bounds.1
      obtain ⟨piece, rfl, carried⟩ := pieces.mp read
      have placed : opening = start + number := by omega
      obtain ⟨runs, before, after, offsetsEq, valuesEq, tail⟩ :=
        continued.exists_runs placed carried closed inside
      have some : runs ≠ [] := by
        intro none
        rw [none] at offsetsEq
        cases offsetsEq
      rw [placed] at tail
      obtain ⟨plan, rfl, planned, joined⟩ :=
        exists_plan_of_runs fits some spelled number offsetsEq inside tail
      refine ⟨start, plan, rfl, ?_, joined⟩
      have slotted : PointerTable.aliases ⟨start, (number : Int) :: rest, padding⟩ =
          Run.aliasesFrom 0 plan.runs := by
        rw [PointerTable.aliases, offsetsEq]
        exact Run.aliasesFrom_offsetsFrom solid
      rw [slotted, valuesEq]
      rfl

theorem find?_offsetsFrom {running size : Nat} {runs : List (Run π)} (positive : 0 < size) :
    (Run.offsetsFrom (running + size) runs).find? (· ≠ (running : Int)) =
      if runs = [] then none else some ((running + size : Nat) : Int) := by
  cases runs with
  | nil => rfl
  | cons run rest =>
      have different : ((running : Int) + size) ≠ running := by omega
      simp [Run.offsetsFrom, List.replicate_succ]
      omega

/-- The slots of a run that share its entry, once the first one is read. -/
theorem gives_shared {base start middle : Nat} {offsets front rest : List Int} {offset : Int} {a : α}
    {copies : Nat} {values : List α} (positive : 0 < padding)
    (split : offsets = front ++ List.replicate copies offset ++ rest)
    (last : front.getLast? = some offset)
    (ends : base + length = stop) (begins : base + offset = start) (placed : start ≤ buffer.size)
    (read : entry.Reads buffer start a middle)
    (ordered : offset ≤ (rest.find? (· ≠ offset)).getD length)
    (reached : base + (rest.find? (· ≠ offset)).getD length ≤ buffer.size)
    (more : ∀ place, (Reader.forEach (slotReader base padding offsets length entry what gap)
        (List.range' (front.length + copies) rest.length)).Gives buffer place values) :
    (Reader.forEach (slotReader base padding offsets length entry what gap)
        (List.range' front.length (copies + rest.length))).Gives buffer place
          (List.replicate copies a ++ values) := by
  induction copies generalizing front place with
  | zero => simpa using more place
  | succ copies ih =>
      have here : offsets = front ++ offset :: (List.replicate copies offset ++ rest) := by
        simp [split, List.replicate_succ]
      have moved : offsets = (front ++ [offset]) ++ List.replicate copies offset ++ rest := by
        simp [split, List.replicate_succ]
      have count : copies + 1 + rest.length = (copies + rest.length) + 1 := by omega
      have next : (front ++ [offset]).length = front.length + 1 := by simp
      have later : front.length + (copies + 1) = (front ++ [offset]).length + copies := by
        rw [next]
        omega
      rw [later] at more
      rw [count, List.range'_succ, List.replicate_succ, List.cons_append]
      have same := PointerTable.find?_replicate_append copies offset rest
      refine Reader.gives_forEach_cons ?_ ?_
      · exact gives_readSlot positive here ends begins placed read (by rw [same]; exact ordered)
          (by rw [same]; exact reached) (Or.inl last)
      · intro middle
        rw [← next]
        exact ih moved List.getLast?_concat more

/-- What stands behind the entry of a run, when further runs or the trailer follow. -/
theorem closed_of_carries {base running size middle gap before after : Nat} {rest : List (Run π)}
    (positive : 0 < size)
    (zeros : buffer.Carries middle (base + (running + size)) (Bytes.filled 0 gap))
    (others : buffer.Carries (base + (running + size)) stop
      (rest.flatMap Run.bytes ++ Bytes.trailer padding before after)) :
    Closed buffer base padding middle stop
      ((Run.offsetsFrom (running + size) rest).find? (· ≠ (running : Int))) := by
  rw [find?_offsetsFrom positive]
  split
  next none =>
    intro _
    rw [none] at others
    have joined := zeros.append others
    refine ⟨gap + before, after, ?_⟩
    simpa [Bytes.trailer, ← Bytes.filled_append] using joined
  next =>
    intro target aimed _
    have arrived : target = base + (running + size) := by omega
    rw [arrived]
    exact ⟨gap, zeros⟩

theorem gives_runs {base running : Nat} {offsets : List Int} {runs : List (Run π)}
    {before after : Nat} (front : List Int) (place : Nat) (pieces : entry.ReadsPieces π)
    (solid : ∀ piece : π, 0 < (Piece.bytes piece).length) (positive : 0 < padding)
    (split : offsets = front ++ Run.offsetsFrom running runs)
    (ends : base + length = stop)
    (carried : buffer.Carries (base + running) stop
      (runs.flatMap Run.bytes ++ Bytes.trailer padding before after)) :
    (Reader.forEach (slotReader base padding offsets length entry what gap)
        (List.range' front.length (Run.offsetsFrom running runs).length)).Gives buffer place
          (runs.flatMap Run.values) := by
  induction runs generalizing front running place with
  | nil => exact ⟨place, Reader.reads_forEach_nil_iff.mpr ⟨rfl, rfl⟩⟩
  | cons run rest ih =>
      have extent := solid run.piece
      have size := run.length_bytes
      rw [List.flatMap_cons, List.append_assoc] at carried
      obtain ⟨next, mine, others⟩ := Buffer.carries_append_iff.mp carried
      have ending := mine.stop_eq
      obtain ⟨middle, body, zeros⟩ := Buffer.carries_append_iff.mp mine
      have read := pieces.reads body
      have inside := others.stop_le
      have order := others.start_le
      have following : base + (running + run.bytes.length) = next := by omega
      rw [← following] at others
      let tail := Run.offsetsFrom (running + run.bytes.length) rest
      have found : tail.find? (· ≠ (running : Int)) =
          if rest = [] then none else some ((running + run.bytes.length : Nat) : Int) :=
        find?_offsetsFrom (by omega)
      have here : offsets = front ++ (running : Int) ::
          (List.replicate run.copies (running : Int) ++ tail) := by
        simp [split, Run.offsetsFrom, List.replicate_succ, tail]
      have same := PointerTable.find?_replicate_append run.copies (running : Int) tail
      have ordered : (running : Int) ≤ (tail.find? (· ≠ (running : Int))).getD length := by
        rw [found]
        split <;> simp <;> omega
      have reached : base + (tail.find? (· ≠ (running : Int))).getD length ≤ buffer.size := by
        rw [found]
        split <;> simp <;> omega
      have closed : Closed buffer base padding middle stop (tail.find? (· ≠ (running : Int))) := by
        rw [← following] at zeros
        exact closed_of_carries (by omega) zeros others
      have count : (Run.offsetsFrom running (run :: rest)).length =
          (run.copies + tail.length) + 1 := by
        simp [Run.offsetsFrom, tail]
        omega
      have shown : (run :: rest).flatMap Run.values =
          Piece.value run.piece :: (List.replicate run.copies (Piece.value run.piece)
            ++ rest.flatMap Run.values) := by
        simp [Run.values, List.replicate_succ]
      have begins : (base : Int) + running = (base + running : Nat) := by simp
      rw [count, List.range'_succ, shown]
      refine Reader.gives_forEach_cons ?_ ?_
      · exact gives_readSlot positive here ends begins (by omega) read (by rw [same]; exact ordered)
          (by rw [same]; exact reached) (Or.inr (by rw [same]; exact closed))
      · intro place
        have moved : offsets = (front ++ [(running : Int)]) ++
            List.replicate run.copies (running : Int) ++ tail := by
          simp [here]
        have slots : (front ++ [(running : Int)]).length = front.length + 1 := by simp
        rw [← slots]
        refine gives_shared positive moved List.getLast?_concat ends begins (by omega) read ordered
          reached ?_
        · intro place
          have deeper := ih _ place moved others
          have index : (front ++ [(running : Int)] ++
              List.replicate run.copies (running : Int)).length =
                (front ++ [(running : Int)]).length + run.copies := by
            rw [List.length_append, List.length_replicate]
          rw [index] at deeper
          exact deeper

/-- A plan that the buffer carries is read as its values. -/
theorem gives_of_plan {start : Nat} {plan : Plan π} (pieces : entry.ReadsPieces π)
    (solid : ∀ piece : π, 0 < (Piece.bytes piece).length)
    (carried : buffer.Carries start stop (Piece.bytes plan)) :
    (read start stop entry what gap).Gives buffer place (Piece.value plan) := by
  have positive : 0 < plan.padding := by have room := plan.room; omega
  obtain ⟨last, front, trailer⟩ := Buffer.carries_append_iff.mp carried
  obtain ⟨first, spelled, entries⟩ := Buffer.carries_append_iff.mp front
  have opened := spelled.stop_eq
  simp only [PointerTable.length_spell] at opened
  have inside := trailer.stop_le
  unfold read
  refine (PointerTable.reads_of_carries plan.tableFits spelled).bind_gives ?_
  cases runs : plan.runs with
  | nil =>
      have none : plan.offsets = [] := by simp [Plan.offsets, runs, Run.offsetsFrom]
      rw [runs] at entries
      have arrived := entries.eq_start_of_nil
      have size : (start : Int) + PointerTable.size ⟨start, plan.offsets, plan.padding⟩ =
          (last : Nat) := by
        simp only [none, List.length_nil, PointerTable.size] at opened ⊢
        omega
      have value : Piece.value plan = (([] : List α), ([] : List Int)) := by
        simp [Piece.value, Plan.values, Plan.aliases, runs, Run.aliasesFrom]
      rw [value]
      simp only [none, List.isEmpty_nil, if_true] at size ⊢
      exact (Reader.reads_expectTrailer positive size rfl trailer).bind_gives (Reader.gives_pure _)
  | cons run rest =>
      have some : plan.offsets ≠ [] := by
        intro none
        have empty := Run.offsetsFrom_eq_nil_iff.mp none
        rw [runs] at empty
        cases empty
      have nonempty : plan.offsets.isEmpty = false := by
        cases offsets : plan.offsets with
        | nil => exact absurd offsets some
        | cons offset others => rfl
      have aliased : PointerTable.aliases ⟨start, plan.offsets, plan.padding⟩ =
          Run.aliasesFrom 0 plan.runs := Run.aliasesFrom_offsetsFrom solid
      have ends : (start : Int) + (stop - start) = stop := by omega
      have begins : first = start + plan.tableSize := by
        rw [Plan.length_offsets] at opened
        exact opened
      rw [begins] at entries
      have slots : ∀ place, (Reader.forEach (slotReader start plan.padding plan.offsets
          (stop - start) entry what gap) (List.range plan.offsets.length)).Gives buffer place
            plan.values := by
        intro place
        rw [List.range_eq_range']
        exact gives_runs [] place pieces solid positive rfl ends (entries.append trailer)
      rw [nonempty]
      simp only [Bool.false_eq_true, if_false]
      refine (slots _).bind ?_
      intro middle
      rw [aliased]
      exact Reader.gives_pure _

theorem readsSections (pieces : entry.ReadsPieces π)
    (solid : ∀ piece : π, 0 < (Piece.bytes piece).length) :
    Reader.ReadsSections (fun start stop => read start stop entry what gap) (Plan π) := by
  intro buffer stop place first result inside
  constructor
  · intro given
    exact exists_plan_of_gives pieces solid inside given
  · intro found
    obtain ⟨start, plan, rfl, rfl, carried⟩ := found
    exact gives_of_plan pieces solid carried

end FighterData.EntryArray
