import DxFeed.BufferedIO.CompactInt
import DxFeed.BufferedIO.UtfString

/-!
# From the output stream to the input stream

A call may read from an input stream that is a part of its state.  The rest of the state is a function
of the stream here, `s` in front of the bytes and `s'` behind them.

* `Obtains x s bs a s'`: in front of the bytes `bs` the call consumes them and returns `a`;
* `ObtainsAll`, `Receives`: the same up to the limit, and for a call that moves the limit;
* `Transports write x s a s' n`: `write` puts at most `n` bytes, and `x` obtains `a` from them;
* `Transports.bind`, `transports_list`: calls one after the other, on both sides.
-/

namespace DxFeed.BufferedIO

open Call FixedWidth PrefixCode

variable {ε σ α β : Type} {s s' s'' : InputContext → σ} {x : Call ε σ α} {a : α} {bs cs : List Int8}

/-! ### Calls on a state with an input stream -/

/-- In front of the bytes `bs` the call consumes them, returns `a`, and turns the rest of the state
from `s` to `s'`. -/
def Obtains (x : Call ε σ α) (s : InputContext → σ) (bs : List Int8) (a : α)
    (s' : InputContext → σ) : Prop :=
  ∀ pre post limit, (pre ++ (bs ++ post)).length ≤ INT_MAX →
    exec x (s (inputAt pre (bs ++ post) limit)) = (.ok a, s' (inputAt (pre ++ bs) post limit))

theorem obtains_pure (a : α) : Obtains (pure a : Call ε σ α) s [] a s := by
  intro pre post limit _
  simp

/-- A change of the rest of the state consumes nothing. -/
theorem obtains_modify {f : σ → σ} (h : ∀ input, f (s input) = s' input) :
    Obtains (modify f : Call ε σ PUnit) s [] ⟨⟩ s' := by
  intro pre post limit _
  simp [h]

/-- A call that looks at the state first. -/
theorem obtains_get_bind {f : σ → Call ε σ α} (h : ∀ input, Obtains (f (s input)) s bs a s') :
    Obtains (get >>= f) s bs a s' := by
  intro pre post limit hlen
  rw [exec_bind_ok (exec_get _)]
  exact h _ pre post limit hlen

theorem Obtains.bind {f : α → Call ε σ β} {b : β} (hx : Obtains x s bs a s')
    (hf : Obtains (f a) s' cs b s'') : Obtains (x >>= f) s (bs ++ cs) b s'' := by
  intro pre post limit hlen
  have hx' := hx pre (cs ++ post) limit (by simpa using hlen)
  have hf' := hf (pre ++ bs) post limit (by simpa using hlen)
  rw [List.append_assoc, exec_bind_ok hx', hf', List.append_assoc]

/-- A call behind one that consumes nothing. -/
theorem Obtains.silent {f : α → Call ε σ β} {b : β} (hx : Obtains x s [] a s')
    (hf : Obtains (f a) s' bs b s'') : Obtains (x >>= f) s bs b s'' := by
  simpa using hx.bind hf

/-- A call that reads from the stream only. -/
theorem Reads.obtains {y : ReadCall α} {e : ErrorCode → ε} (h : Reads y bs a)
    (hx : ∀ input, exec x (s input) = ((exec y input).1.mapError e, s (exec y input).2)) :
    Obtains x s bs a s := by
  intro pre post limit hlen
  rw [hx, h pre post limit hlen]
  rfl

/-- As `Obtains`, where the limit of the stream is the end of the bytes. -/
def ObtainsAll (x : Call ε σ α) (s : InputContext → σ) (bs : List Int8) (a : α)
    (s' : InputContext → σ) : Prop :=
  ∀ pre post, (pre ++ (bs ++ post)).length ≤ INT_MAX →
    exec x (s (inputAt pre (bs ++ post) (pre.length + bs.length))) =
      (.ok a, s' (inputAt (pre ++ bs) post (pre.length + bs.length)))

theorem Obtains.all (h : Obtains x s bs a s') : ObtainsAll x s bs a s' :=
  fun pre post hlen => h pre post (pre.length + bs.length) hlen

theorem Obtains.bindAll {f : α → Call ε σ β} {b : β} (hx : Obtains x s bs a s')
    (hf : ObtainsAll (f a) s' cs b s'') : ObtainsAll (x >>= f) s (bs ++ cs) b s'' := by
  intro pre post hlen
  have hlimit : pre.length + (bs ++ cs).length = (pre ++ bs).length + cs.length := by
    simp only [List.length_append]
    omega
  have hx' := hx pre (cs ++ post) ((pre ++ bs).length + cs.length) (by simpa using hlen)
  have hf' := hf (pre ++ bs) post (by simpa using hlen)
  rw [hlimit, List.append_assoc, exec_bind_ok hx', hf', List.append_assoc]

/-- As `Obtains`, but the limit of the stream may be another one behind the bytes. -/
def Receives (x : Call ε σ α) (s : InputContext → σ) (bs : List Int8) (a : α)
    (s' : InputContext → σ) : Prop :=
  ∀ pre post limit, (pre ++ (bs ++ post)).length ≤ INT_MAX → ∃ limit',
    exec x (s (inputAt pre (bs ++ post) limit)) = (.ok a, s' (inputAt (pre ++ bs) post limit'))

theorem Obtains.receives (h : Obtains x s bs a s') : Receives x s bs a s' :=
  fun pre post limit hlen => ⟨limit, h pre post limit hlen⟩

theorem Receives.bind {f : α → Call ε σ β} {b : β} (hx : Receives x s bs a s')
    (hf : Receives (f a) s' cs b s'') : Receives (x >>= f) s (bs ++ cs) b s'' := by
  intro pre post limit hlen
  obtain ⟨limit', hx'⟩ := hx pre (cs ++ post) limit (by simpa using hlen)
  obtain ⟨limit'', hf'⟩ := hf (pre ++ bs) post limit' (by simpa using hlen)
  exact ⟨limit'', by rw [List.append_assoc, exec_bind_ok hx', hf', List.append_assoc]⟩

/-! ### Both sides -/

/-- `write` puts at most `n` bytes, and in front of them `x` consumes them and returns `a`. -/
def Transports (write : WriteCall Unit) (x : Call ε σ α) (s : InputContext → σ) (a : α)
    (s' : InputContext → σ) (n : ℕ) : Prop :=
  ∃ bs, Puts write bs ∧ Obtains x s bs a s' ∧ bs.length ≤ n

variable {write write' : WriteCall Unit} {n n' : ℕ}

theorem transports_pure (a : α) : Transports (pure ()) (pure a : Call ε σ α) s a s 0 :=
  ⟨[], puts_pure, obtains_pure a, le_rfl⟩

theorem Transports.mono (h : Transports write x s a s' n) (hle : n ≤ n') :
    Transports write x s a s' n' := by
  obtain ⟨bs, hputs, hobtains, hlength⟩ := h
  exact ⟨bs, hputs, hobtains, hlength.trans hle⟩

theorem Transports.bind {f : α → Call ε σ β} {b : β} (hx : Transports write x s a s' n)
    (hf : Transports write' (f a) s' b s'' n') :
    Transports (do write; write') (x >>= f) s b s'' (n + n') := by
  obtain ⟨bs, hputs, hobtains, hlength⟩ := hx
  obtain ⟨cs, hputs', hobtains', hlength'⟩ := hf
  refine ⟨bs ++ cs, hputs.bind hputs', hobtains.bind hobtains', ?_⟩
  rw [List.length_append]
  exact Nat.add_le_add hlength hlength'

/-- The reader changes its state in between. -/
theorem Transports.silent {f : α → Call ε σ β} {b : β} (hx : Obtains x s [] a s')
    (hf : Transports write (f a) s' b s'' n) : Transports write (x >>= f) s b s'' n := by
  obtain ⟨bs, hputs, hobtains, hlength⟩ := hf
  exact ⟨bs, hputs, hx.silent hobtains, hlength⟩

/-- The reader goes on without the stream. -/
theorem Transports.andThen {f : α → Call ε σ β} {b : β} (hx : Transports write x s a s' n)
    (hf : Obtains (f a) s' [] b s'') : Transports write (x >>= f) s b s'' n := by
  obtain ⟨bs, hputs, hobtains, hlength⟩ := hx
  refine ⟨bs, hputs, ?_, hlength⟩
  simpa using hobtains.bind hf

/-! ### Values -/

/-- A reader of the stream only, as a call on the whole state. -/
def ReadsOn (x : Call ε σ α) (s : InputContext → σ) (y : ReadCall α) : Prop :=
  ∃ e : ErrorCode → ε, ∀ input, exec x (s input) = ((exec y input).1.mapError e, s (exec y input).2)

theorem ReadsOn.obtains {y : ReadCall α} (h : ReadsOn x s y) (hreads : Reads y bs a) :
    Obtains x s bs a s := by
  obtain ⟨e, hx⟩ := h
  exact hreads.obtains hx

theorem transports_int {x : Call ε σ Int32} (hx : ReadsOn x s readCompactInt) (value : Int32) :
    Transports (writeCompactInt value) x s value s 5 := by
  obtain ⟨bs, hputs, hoctets⟩ := puts_writeCompactInt value
  exact ⟨bs, hputs, hx.obtains (reads_writtenInt hoctets),
    length_compact hoctets value.le_toInt value.toInt_lt⟩

/-- A string that is read as it was written: its pairs fit, and it has no terminator inside. -/
structure IsText (value : WString) : Prop where
  pairsFit : PairsFit value
  noZero : 0 ∉ value

theorem terminated_eq_self {value : WString} (h : 0 ∉ value) : terminated value = value := by
  refine List.takeWhile_eq_self_iff.mpr fun c hc => decide_eq_true ?_
  rintro rfl
  exact h hc

theorem transports_text {x : Call ε σ (Option WString)} (hx : ReadsOn x s readText)
    {value : Option WString} (hsize : utfSize value ≤ INT_MAX) (htext : ∀ w ∈ value, IsText w) :
    Transports (writeUtfString value) x s value s (utfSize value) := by
  obtain ⟨bs, hputs, hlength, hiff⟩ := exists_written hsize
  have hwhole : value.map terminated = value := by
    cases value with
    | none => rfl
    | some w => rw [Option.map_some, terminated_eq_self (htext w rfl).noZero]
  refine ⟨bs, hputs, hx.obtains ?_, hlength⟩
  intro pre post limit hlen
  have hread := (hiff pre post limit hlen).mpr fun w hw => (htext w hw).pairsFit
  rw [readText, exec_bind_ok hread, hwhole]
  rfl

/-! ### Lists -/

/-- The calls for the elements of a list. -/
def writeAll (write : β → WriteCall Unit) : List β → WriteCall Unit
  | [] => pure ()
  | b :: bs => do
      write b
      writeAll write bs

/-- The elements are transported one after the other; `s bs` is the state behind the elements `bs`. -/
theorem transports_list {read : ℕ → Call ε σ Unit} {write : β → WriteCall Unit}
    {round : Call ε σ Unit} (hzero : read 0 = pure ())
    (hsucc : ∀ k, read (k + 1) = do round; read k)
    {s : List β → InputContext → σ} {size : β → ℕ} (l front : List β)
    (hround : ∀ front b, b ∈ l →
      Transports (write b) round (s front) () (s (front ++ [b])) (size b)) :
    Transports (writeAll write l) (read l.length) (s front) () (s (front ++ l))
      (l.map size).sum := by
  induction l generalizing front with
  | nil =>
      simp only [List.length_nil, hzero, List.append_nil, List.map_nil, List.sum_nil]
      exact transports_pure ()
  | cons b l ih =>
      have hrest := ih (front ++ [b]) fun front' b' hb' =>
        hround front' b' (List.mem_cons_of_mem b hb')
      rw [List.append_assoc, List.singleton_append] at hrest
      rw [List.length_cons, hsucc, List.map_cons, List.sum_cons]
      exact (hround front b List.mem_cons_self).bind hrest

end DxFeed.BufferedIO
