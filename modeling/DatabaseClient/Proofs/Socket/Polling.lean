import DatabaseClient.Socket.Kernel

set_option autoImplicit false

namespace DatabaseClient.Socket.Kernel

theorem poll_cases {kernel later : Kernel} {limit : Option Nat} {signal : Option Signal}
    (polled : kernel.poll limit = some (signal, later)) :
    (∃ first rest, kernel.arrivals = first :: rest ∧
      (∀ ms, limit = some ms → first.delay ≤ 1000 * ms) ∧
      signal = some first.signal ∧ later = kernel.deliver first rest) ∨
    (∃ ms, limit = some ms ∧ kernel.patience ≠ 0 ∧
      (∀ first rest, kernel.arrivals = first :: rest → 1000 * ms < first.delay) ∧
      signal = none ∧ later = kernel.idle (1000 * ms)) := by
  have lasted {ms : Nat} (h : kernel.runOut ms = some (signal, later)) :
      kernel.patience ≠ 0 ∧ signal = none ∧ later = kernel.idle (1000 * ms) := by
    unfold runOut at h
    split at h
    next => simp at h
    next left =>
      obtain ⟨rfl, rfl⟩ := Prod.mk.inj (Option.some.inj h)
      exact ⟨left, rfl, rfl⟩
  unfold poll at polled
  split at polled
  next => simp at polled
  next ms empty =>
    obtain ⟨left, none, idle⟩ := lasted polled
    exact .inr ⟨ms, rfl, left, by simp [empty], none, idle⟩
  next first rest arrivals =>
    obtain ⟨rfl, rfl⟩ := Prod.mk.inj (Option.some.inj polled)
    exact .inl ⟨first, rest, arrivals, by simp, rfl, rfl⟩
  next first rest ms arrivals =>
    split at polled
    next due =>
      obtain ⟨rfl, rfl⟩ := Prod.mk.inj (Option.some.inj polled)
      refine .inl ⟨first, rest, arrivals, ?_, rfl, rfl⟩
      intro _ same
      cases same
      exact due
    next late =>
      obtain ⟨left, none, idle⟩ := lasted polled
      refine .inr ⟨ms, rfl, left, ?_, none, idle⟩
      intro other others same
      obtain rfl := (List.cons.inj (arrivals.symm.trans same)).1
      omega

theorem poll_none {kernel later : Kernel} {limit : Option Nat}
    (polled : kernel.poll limit = some (none, later)) :
    ∃ ms, limit = some ms ∧ later = kernel.idle (1000 * ms) ∧
      ∀ first rest, kernel.arrivals = first :: rest → 1000 * ms < first.delay := by
  rcases poll_cases polled with ⟨first, rest, -, -, signal, -⟩ | ⟨ms, limit, -, late, -, idle⟩
  next => simp at signal
  next => exact ⟨ms, limit, idle, late⟩

theorem poll_unlimited {kernel later : Kernel} {signal : Option Signal}
    (polled : kernel.poll none = some (signal, later)) : signal ≠ none := by
  rintro rfl
  obtain ⟨ms, limit, -⟩ := poll_none polled
  cases limit

theorem poll_some {kernel later : Kernel} {limit : Option Nat} {signal : Signal}
    (polled : kernel.poll limit = some (some signal, later)) :
    ∃ first rest, kernel.arrivals = first :: rest ∧ first.signal = signal ∧
      later = kernel.deliver first rest := by
  rcases poll_cases polled with ⟨first, rest, arrivals, -, same, later⟩ | ⟨ms, -, -, -, none, -⟩
  next => exact ⟨first, rest, arrivals, (Option.some.inj same).symm, later⟩
  next => simp at none

theorem registered_poll {kernel later : Kernel} {limit : Option Nat} {signal : Option Signal}
    (polled : kernel.poll limit = some (signal, later)) :
    later.registered = kernel.registered ∧ later.faults = kernel.faults := by
  rcases poll_cases polled with ⟨first, rest, -, -, -, rfl⟩ | ⟨ms, -, -, -, -, rfl⟩
  next => exact ⟨rfl, rfl⟩
  next => exact ⟨rfl, rfl⟩

theorem answer_cases (kernel : Kernel) (call : Control) :
    kernel.answer call = kernel.verdict call ∨ kernel.answer call ∈ kernel.faults := by
  unfold answer
  split
  next => exact .inl rfl
  next => exact .inl rfl
  next faults => exact .inr (by simp [faults])

theorem answer_of_head {kernel : Kernel} (head : kernel.faults.getD 0 0 = 0) (call : Control) :
    kernel.answer call = kernel.verdict call := by
  unfold answer
  split
  next => rfl
  next => rfl
  next errno rest scripted faults => exact absurd (by simpa [faults] using head) scripted

theorem verdict_of_accepted {kernel : Kernel} {call : Control}
    (accepted : kernel.answer call = 0) : kernel.verdict call = 0 := by
  unfold answer at accepted
  split at accepted
  next => exact accepted
  next => exact accepted
  next scripted _ => exact absurd accepted scripted

theorem getD_faults_control (kernel : Kernel) (call : Control) (n : Nat) :
    (kernel.control call).faults.getD n 0 = kernel.faults.getD (n + 1) 0 := by
  simp [control, List.getD_eq_getElem?_getD]

theorem registered_add {kernel : Kernel} {descriptor : Descriptor} {watch : Watch}
    (accepted : kernel.answer (.add descriptor watch) = 0) :
    (kernel.control (.add descriptor watch)).registered = descriptor :: kernel.registered := by
  simp [control, accepted]

theorem registered_remove {kernel : Kernel} {descriptor : Descriptor}
    (accepted : kernel.answer (.remove descriptor) = 0) :
    (kernel.control (.remove descriptor)).registered = kernel.registered.erase descriptor := by
  simp [control, accepted]

theorem registered_refused {kernel : Kernel} {call : Control} (refused : kernel.answer call ≠ 0) :
    (kernel.control call).registered = kernel.registered := by
  simp [control, refused]

/-- No call fails by chance, and the registrations are known. -/
structure Serves (kernel : Kernel) (registered : List Descriptor) : Prop where
  registered : kernel.registered = registered
  faultless : ∀ errno ∈ kernel.faults, errno = 0

theorem Serves.poll {kernel later : Kernel} {registered : List Descriptor}
    (serves : kernel.Serves registered) {limit : Option Nat} {signal : Option Signal}
    (polled : kernel.poll limit = some (signal, later)) : later.Serves registered := by
  obtain ⟨same, faults⟩ := registered_poll polled
  exact ⟨same.trans serves.registered, by rw [faults]; exact serves.faultless⟩

theorem Serves.answer {kernel : Kernel} {registered : List Descriptor}
    (serves : kernel.Serves registered) (call : Control) :
    kernel.answer call = kernel.verdict call := by
  refine answer_of_head ?_ call
  cases faults : kernel.faults with
  | nil => rfl
  | cons errno rest => exact serves.faultless errno (by simp [faults])

variable {kernel : Kernel} {descriptor : Descriptor}

theorem Serves.control {registered : List Descriptor} (serves : kernel.Serves registered)
    (call : Control) : ∀ errno ∈ (kernel.control call).faults, errno = 0 :=
  fun errno member => serves.faultless errno (List.mem_of_mem_drop member)

theorem Serves.add (serves : kernel.Serves []) (valid : 0 ≤ descriptor) (watch : Watch) :
    kernel.answer (.add descriptor watch) = 0 ∧
      (kernel.control (.add descriptor watch)).Serves [descriptor] := by
  have accepted : kernel.answer (.add descriptor watch) = 0 := by
    simp [serves.answer, verdict, serves.registered, Int.not_lt.mpr valid]
  refine ⟨accepted, ?_, serves.control _⟩
  simp [Kernel.control, accepted, serves.registered]

theorem Serves.remove (serves : kernel.Serves [descriptor]) (valid : 0 ≤ descriptor) :
    kernel.answer (.remove descriptor) = 0 ∧
      (kernel.control (.remove descriptor)).Serves [] := by
  have accepted : kernel.answer (.remove descriptor) = 0 := by
    simp [serves.answer, verdict, serves.registered, Int.not_lt.mpr valid]
  refine ⟨accepted, ?_, serves.control _⟩
  simp [Kernel.control, accepted, serves.registered]

theorem Serves.modify (serves : kernel.Serves [descriptor]) (valid : 0 ≤ descriptor)
    (watch : Watch) :
    kernel.answer (.modify descriptor watch) = 0 ∧
      (kernel.control (.modify descriptor watch)).Serves [descriptor] := by
  have accepted : kernel.answer (.modify descriptor watch) = 0 := by
    simp [serves.answer, verdict, serves.registered, Int.not_lt.mpr valid]
  refine ⟨accepted, ?_, serves.control _⟩
  simp [Kernel.control, accepted, serves.registered]

theorem Serves.refuses {registered : List Descriptor} (serves : kernel.Serves registered)
    (invalid : descriptor < 0) (watch : Watch) :
    kernel.answer (.add descriptor watch) = Errno.badDescriptor := by
  simp [serves.answer, verdict, invalid]

end DatabaseClient.Socket.Kernel
