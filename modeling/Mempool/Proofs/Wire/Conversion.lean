import Mathlib.Data.List.ReduceOption
import Mempool.Proofs.Metrics.Account
import Mempool.Proofs.Wire.NormalForm

/-! Lists of messages, converted up to the first absent one. What is counted and noted comes from
the messages looked at and from no other, and a list of two parts is converted part by part. -/
namespace Mempool.Key

/-- The messages up to and with the first absent one. -/
def lookedAt (ms : List (Option KeyMessage)) : List (Option KeyMessage) :=
  ms.take (ms.findIdx Option.isNone + 1)

@[simp] theorem lookedAt_none_cons (ms : List (Option KeyMessage)) :
    lookedAt (none :: ms) = [none] := by
  simp [lookedAt, List.findIdx_cons]

@[simp] theorem lookedAt_some_cons (m : KeyMessage) (ms : List (Option KeyMessage)) :
    lookedAt (some m :: ms) = some m :: lookedAt ms := by
  simp [lookedAt, List.findIdx_cons]

/-! ## The result -/

theorem exists_eq_map_some {ms : List (Option KeyMessage)} (present : none ∉ ms) :
    ∃ sent : List KeyMessage, ms = sent.map some := by
  induction ms with
  | nil => exact ⟨[], rfl⟩
  | cons m ms ih =>
    rw [List.mem_cons, not_or] at present
    obtain ⟨m, rfl⟩ := Option.ne_none_iff_exists'.mp (Ne.symm present.1)
    obtain ⟨sent, rfl⟩ := ih present.2
    exact ⟨m :: sent, rfl⟩

theorem value_receiveAll_map_some (sent : List KeyMessage) :
    (receiveAll (sent.map some)).value = .ok (sent.map fun m => ofField m.field) := by
  induction sent with
  | nil => rfl
  | cons m sent ih =>
    rw [List.map_cons, receiveAll_some_cons, ih]
    rfl

theorem value_receiveAll_of_absent {ms : List (Option KeyMessage)} (absent : none ∈ ms) :
    (receiveAll ms).value = .error .absent := by
  induction ms with
  | nil => simp at absent
  | cons m ms ih =>
    cases m with
    | none => rfl
    | some m =>
      have later : none ∈ ms := by simpa using absent
      rw [receiveAll_some_cons, ih later]
      rfl

theorem value_receiveAll_eq_ok_iff {ms : List (Option KeyMessage)} {ks : List Key} :
    (receiveAll ms).value = .ok ks ↔
      ∃ sent : List KeyMessage, ms = sent.map some ∧ ks = sent.map fun m => ofField m.field := by
  constructor
  · intro converted
    by_cases absent : none ∈ ms
    · rw [value_receiveAll_of_absent absent] at converted
      contradiction
    · obtain ⟨sent, rfl⟩ := exists_eq_map_some absent
      rw [value_receiveAll_map_some] at converted
      exact ⟨sent, rfl, (Except.ok.inj converted).symm⟩
  · rintro ⟨sent, rfl, rfl⟩
    exact value_receiveAll_map_some sent

theorem exists_value_receiveAll_iff {ms : List (Option KeyMessage)} :
    (∃ ks, (receiveAll ms).value = .ok ks) ↔ none ∉ ms := by
  constructor
  · rintro ⟨ks, converted⟩ absent
    rw [value_receiveAll_of_absent absent] at converted
    contradiction
  · intro present
    obtain ⟨sent, rfl⟩ := exists_eq_map_some present
    exact ⟨_, value_receiveAll_map_some sent⟩

/-- The keys stand where their messages do, each with the bytes of its field as far as both go and
with zeros in the rest. -/
theorem key_of_receiveAll {ms : List (Option KeyMessage)} {ks : List Key}
    (converted : (receiveAll ms).value = .ok ks) {i : Nat} {m : KeyMessage}
    (here : ms[i]? = some (some m)) :
    ∃ k, ks[i]? = some k ∧
      ∀ j < 32, k.bytes[j]? = if j < m.field.length then m.field[j]? else some 0 := by
  obtain ⟨sent, rfl, rfl⟩ := value_receiveAll_eq_ok_iff.mp converted
  rw [List.getElem?_map, Option.map_eq_some_iff] at here
  obtain ⟨_, here, ⟨⟩⟩ := here
  refine ⟨ofField m.field, ?_, eq_ofField_iff.mp rfl⟩
  rw [List.getElem?_map, here]
  rfl

/-! ## What is counted and noted -/

/-- The events are those of the messages looked at, each converted by itself. -/
theorem events_receiveAll (ms : List (Option KeyMessage)) :
    (receiveAll ms).events = (lookedAt ms).flatMap fun m => (receive m).events := by
  induction ms with
  | nil => rfl
  | cons m ms ih =>
    cases m with
    | none => rw [lookedAt_none_cons]; rfl
    | some m =>
      rw [receiveAll_some_cons, lookedAt_some_cons, List.flatMap_cons, ih]
      rfl

theorem countP_absent_lookedAt (ms : List (Option KeyMessage)) :
    (lookedAt ms).countP (·.isSome = false) = if none ∈ ms then 1 else 0 := by
  induction ms with
  | nil => rfl
  | cons m ms ih => cases m <;> simp_all

theorem counters_receiveAll (ms : List (Option KeyMessage)) (c : Counters) :
    let after := c.recordAll (receiveAll ms).events
    after.conversions true = c.conversions true + (lookedAt ms).countP Option.isSome ∧
    after.conversions false = c.conversions false + (if none ∈ ms then 1 else 0) ∧
    after.rejections = c.rejections := by
  intro after
  refine ⟨?_, ?_, ?_⟩
  · rw [Counters.conversions_recordAll, Use.count_converted_receiveAll]
    simp [lookedAt]
  · rw [Counters.conversions_recordAll, Use.count_converted_receiveAll, ← lookedAt,
      countP_absent_lookedAt]
  · funext reason
    rw [Counters.rejections_recordAll, Use.count_rejected_receiveAll, Nat.add_zero]

theorem filterMap_logLine?_fieldEvents (length : Nat) :
    (fieldEvents length).filterMap Event.logLine? = if length = 32 then [] else
      ["DEBUG tx key field has " ++ Decimal.ofNat length ++ " bytes, expected 32"] := by
  unfold fieldEvents size
  by_cases exact : length = 32
  · rw [if_pos exact, if_pos exact]
    rfl
  · rw [if_neg exact, if_neg exact]
    rfl

theorem logLines_receiveAll (ms : List (Option KeyMessage)) :
    (receiveAll ms).logLines =
      (((lookedAt ms).reduceOption.map (·.field.length)).filter (· ≠ 32)).map fun length =>
        "DEBUG tx key field has " ++ Decimal.ofNat length ++ " bytes, expected 32" := by
  induction ms with
  | nil => rfl
  | cons m ms ih =>
    cases m with
    | none => rw [lookedAt_none_cons]; rfl
    | some m =>
      rw [Observed.logLines] at ih ⊢
      rw [receiveAll_some_cons, List.filterMap_append, filterMap_logLine?_fieldEvents, ih,
        lookedAt_some_cons, List.reduceOption_cons_of_some, List.map_cons, List.filter_cons]
      by_cases exact : m.field.length = 32
      · simp [exact]
      · simp [exact]

/-! ## Lists in parts -/

theorem receiveAll_append (ms rest : List (Option KeyMessage)) :
    receiveAll (ms ++ rest) = match (receiveAll ms).value with
      | .error _ => receiveAll ms
      | .ok ks => ⟨(receiveAll rest).value.map (ks ++ ·),
          (receiveAll ms).events ++ (receiveAll rest).events⟩ := by
  induction ms with
  | nil => cases converted : (receiveAll rest).value <;> simp [Except.map, ← converted]
  | cons m ms ih =>
    cases m with
    | none => rfl
    | some m =>
      rw [List.cons_append, receiveAll_some_cons, receiveAll_some_cons, ih]
      cases converted : (receiveAll ms).value with
      | error e =>
        simp only [converted]
        rfl
      | ok ks =>
        cases (receiveAll rest).value with
        | error e => simp [Except.map]
        | ok later => simp [Except.map]

/-- A list is converted exactly if no message is absent, to as many keys in the same order.
Otherwise there is no key at all. Counters and log show the messages looked at, whatever comes after
them, and what is added to a list is looked at exactly if the list was converted. -/
theorem list_conversion (ms : List (Option KeyMessage)) (c : Counters) :
    let received := receiveAll ms
    let after := c.recordAll received.events
    ((∃ ks, received.value = .ok ks) ↔ none ∉ ms) ∧
    (∀ ks : List Key, received.value = .ok ks → ks.length = ms.length ∧
      ∀ (i : Nat) (m : KeyMessage), ms[i]? = some (some m) → ∃ k, ks[i]? = some k ∧
        ∀ j < 32, k.bytes[j]? = if j < m.field.length then m.field[j]? else some 0) ∧
    (none ∈ ms → received.value = .error .absent) ∧
    received.events = ((lookedAt ms).flatMap fun m => (receive m).events) ∧
    (after.conversions true = c.conversions true + (lookedAt ms).countP Option.isSome ∧
      after.conversions false = c.conversions false + (if none ∈ ms then 1 else 0) ∧
      after.rejections = c.rejections) ∧
    received.logLines =
      ((((lookedAt ms).reduceOption.map (·.field.length)).filter (· ≠ 32)).map fun length =>
        "DEBUG tx key field has " ++ Decimal.ofNat length ++ " bytes, expected 32") ∧
    ∀ rest, receiveAll (ms ++ rest) = match received.value with
      | .error _ => received
      | .ok ks => ⟨(receiveAll rest).value.map (ks ++ ·),
          received.events ++ (receiveAll rest).events⟩ := by
  intro received after
  refine ⟨exists_value_receiveAll_iff, ?_, value_receiveAll_of_absent, events_receiveAll ms,
    counters_receiveAll ms c, logLines_receiveAll ms, receiveAll_append ms⟩
  intro ks converted
  refine ⟨?_, fun i m here => key_of_receiveAll converted here⟩
  obtain ⟨sent, same, rfl⟩ := value_receiveAll_eq_ok_iff.mp converted
  rw [same, List.length_map, List.length_map]

/-- A short field is noted; the absent message hides the one after it. -/
example : (receiveAll [some ⟨[7]⟩, none, some ⟨[]⟩]).events =
    [.oddField 1, .keyConverted true, .keyConverted false] := by decide

end Mempool.Key
