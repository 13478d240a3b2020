import DxFeed.Library.Call

/-!
# Calls on a state of two parts

A call may read from the first part of its state and work on the second part with what it reads.

* `onFst`, `onSnd`: calls on one part;
* `Splits x read act`: the call can be done in two, first `read` on the first part and then `act` on
  the second one, and also where it fails, something that could have been read explains what it does
  to the second part;
* `splits_onFst_bind`, `splits_onSnd_bind`, `Splits.bind`, `Splits.map`: calls built from such calls.
-/

namespace Call

variable {ε σ τ α β γ δ : Type}

/-- A call on the first part. -/
def onFst (x : Call ε σ α) : Call ε (σ × τ) α := zoom Prod.fst (fun s p => (p, s.2)) x

/-- A call on the second part. -/
def onSnd (x : Call ε τ α) : Call ε (σ × τ) α := zoom Prod.snd (fun s p => (s.1, p)) x

theorem exec_onFst (x : Call ε σ α) (s : σ) (t : τ) :
    exec (onFst x) (s, t) = ((exec x s).1, ((exec x s).2, t)) := rfl

theorem exec_onSnd (x : Call ε τ α) (s : σ) (t : τ) :
    exec (onSnd x) (s, t) = ((exec x t).1, (s, (exec x t).2)) := rfl

theorem exec_onFst_eq_ok {x : Call ε σ α} {s s' : σ} {t t' : τ} {a : α} :
    exec (onFst x) (s, t) = (.ok a, (s', t')) ↔ exec x s = (.ok a, s') ∧ t = t' := by
  rw [exec_onFst]
  simp only [Prod.ext_iff]
  tauto

theorem exec_onSnd_eq_ok {x : Call ε τ α} {s s' : σ} {t t' : τ} {a : α} :
    exec (onSnd x) (s, t) = (.ok a, (s', t')) ↔ exec x t = (.ok a, t') ∧ s = s' := by
  rw [exec_onSnd]
  simp only [Prod.ext_iff]
  tauto

/-- Two calls do the same to a part: both fail or both return the same, and they leave the same. -/
def Agree (r : Except ε α × τ) (r' : Except ε α × τ) : Prop :=
  r.1.toOption = r'.1.toOption ∧ r.2 = r'.2

/-- The call can be done in two. -/
structure Splits (x : Call ε (σ × τ) α) (read : Call ε σ β) (act : β → Call ε τ α) : Prop where
  /-- It succeeds if and only if both calls do. -/
  ok : ∀ s t a s' t', exec x (s, t) = (.ok a, (s', t')) ↔
    ∃ b, exec read s = (.ok b, s') ∧ exec (act b) t = (.ok a, t')
  /-- Whatever becomes of it, it does to the second part what `act` can do to it. -/
  explained : ∀ s t, ∃ b, Agree ((exec x (s, t)).1, (exec x (s, t)).2.2) (exec (act b) t)

theorem splits_onSnd (y : Call ε τ α) :
    Splits (onSnd y : Call ε (σ × τ) α) (pure ()) fun _ => y where
  ok := by
    intro s t a s' t'
    rw [exec_onSnd_eq_ok]
    constructor
    · rintro ⟨hy, rfl⟩
      exact ⟨(), rfl, hy⟩
    · rintro ⟨⟨⟩, hs, hy⟩
      exact ⟨hy, (Prod.mk.inj hs).2⟩
  explained := fun _ _ => ⟨(), rfl, rfl⟩

/-- A call that does not succeed, whatever there is to read. -/
theorem splits_throw [Nonempty β] (e : ε) (read : Call ε σ β) :
    Splits (onSnd (throw e) : Call ε (σ × τ) α) read fun _ => throw e where
  ok := by
    intro s t a s' t'
    rw [exec_onSnd_eq_ok]
    constructor
    · rintro ⟨h, -⟩
      exact nomatch (Prod.mk.inj h).1
    · rintro ⟨b, -, h⟩
      exact nomatch (Prod.mk.inj h).1
  explained := fun _ _ => ⟨Classical.arbitrary β, rfl, rfl⟩

/-- A call that starts by reading; where nothing is read, it is as if something had been read that is
refused. -/
theorem splits_onFst_bind {x : Call ε σ α} {f : α → Call ε (σ × τ) γ} {read : α → Call ε σ β}
    {act : α → β → Call ε τ γ} (h : ∀ a, Splits (f a) (read a) (act a))
    (hrefused : ∃ a b e, ∀ t, exec (act a b) t = (.error e, t)) :
    Splits (onFst x >>= f) (do
      let a ← x
      let b ← read a
      return (a, b)) fun p => act p.1 p.2 where
  ok := by
    intro s t c s' t'
    constructor
    · intro hexec
      obtain ⟨a, ⟨s₁, t₁⟩, hx, hf⟩ := exec_bind_eq_ok hexec
      obtain ⟨hread, rfl⟩ := exec_onFst_eq_ok.mp hx
      obtain ⟨b, hb, hact⟩ := ((h a).ok s₁ t c s' t').mp hf
      refine ⟨(a, b), ?_, hact⟩
      rw [exec_bind_ok hread, exec_bind_ok hb]
      rfl
    · rintro ⟨⟨a, b⟩, hread, hact⟩
      obtain ⟨a', s₁, hx, hrest⟩ := exec_bind_eq_ok hread
      obtain ⟨b', s₂, hb, hpure⟩ := exec_bind_eq_ok hrest
      obtain ⟨hp, rfl⟩ := Prod.mk.inj hpure
      obtain ⟨rfl, rfl⟩ := Prod.mk.inj (Except.ok.inj hp)
      rw [exec_bind_ok (exec_onFst_eq_ok.mpr ⟨hx, rfl⟩)]
      exact ((h a').ok s₁ t c s₂ t').mpr ⟨b', hb, hact⟩
  explained := by
    intro s t
    rcases hx : exec x s with ⟨e | a, s₁⟩
    · have hexec : exec (onFst x) (s, t) = (.error e, (s₁, t)) := by
        rw [exec_onFst, hx]
      obtain ⟨a, b, e', ht⟩ := hrefused
      refine ⟨(a, b), ?_⟩
      rw [exec_bind_error hexec, ht]
      exact ⟨rfl, rfl⟩
    · obtain ⟨b, hb⟩ := (h a).explained s₁ t
      refine ⟨(a, b), ?_⟩
      rw [exec_bind_ok (exec_onFst_eq_ok.mpr ⟨hx, rfl⟩)]
      exact hb

/-- A call that starts with one that splits; what is read then does not depend on its result. -/
theorem Splits.bind [Nonempty δ] {x : Call ε (σ × τ) α} {f : α → Call ε (σ × τ) γ}
    {read : Call ε σ β} {act : β → Call ε τ α} {read' : Call ε σ δ} {act' : α → δ → Call ε τ γ}
    (hx : Splits x read act) (hf : ∀ a, Splits (f a) read' (act' a)) :
    Splits (x >>= f) (do
      let b ← read
      let d ← read'
      return (b, d)) fun p => act p.1 >>= fun a => act' a p.2 where
  ok := by
    intro s t c s' t'
    constructor
    · intro hexec
      obtain ⟨a, ⟨s₁, t₁⟩, hfirst, hrest⟩ := exec_bind_eq_ok hexec
      obtain ⟨b, hread, hact⟩ := (hx.ok s t a s₁ t₁).mp hfirst
      obtain ⟨d, hread', hact'⟩ := ((hf a).ok s₁ t₁ c s' t').mp hrest
      refine ⟨(b, d), ?_, by rw [exec_bind_ok hact, hact']⟩
      rw [exec_bind_ok hread, exec_bind_ok hread']
      rfl
    · rintro ⟨⟨b, d⟩, hread, hact⟩
      obtain ⟨b', s₁, hb, hrest⟩ := exec_bind_eq_ok hread
      obtain ⟨d', s₂, hd, hpure⟩ := exec_bind_eq_ok hrest
      obtain ⟨hp, rfl⟩ := Prod.mk.inj hpure
      obtain ⟨rfl, rfl⟩ := Prod.mk.inj (Except.ok.inj hp)
      obtain ⟨a, t₁, ha, hc⟩ := exec_bind_eq_ok hact
      rw [exec_bind_ok ((hx.ok s t a s₁ t₁).mpr ⟨b', hb, ha⟩)]
      exact ((hf a).ok s₁ t₁ c s₂ t').mpr ⟨d', hd, hc⟩
  explained := by
    intro s t
    obtain ⟨b, hb⟩ := hx.explained s t
    rcases hexec : exec x (s, t) with ⟨e | a, s₁, t₁⟩
    · rw [hexec] at hb
      rw [exec_bind_error hexec]
      refine ⟨(b, Classical.arbitrary δ), ?_⟩
      rcases hact : exec (act b) t with ⟨e' | a', t'⟩
      · rw [hact] at hb
        rw [exec_bind_error hact]
        exact ⟨rfl, hb.2⟩
      · rw [hact] at hb
        exact nomatch hb.1
    · rw [hexec] at hb
      rw [exec_bind_ok hexec]
      rcases hact : exec (act b) t with ⟨e' | a', t'⟩
      · rw [hact] at hb
        exact nomatch hb.1
      · rw [hact] at hb
        obtain ⟨ha, rfl⟩ := hb
        obtain rfl : a = a' := Option.some.inj ha
        obtain ⟨d, hd⟩ := (hf a).explained s₁ t₁
        refine ⟨(b, d), ?_⟩
        rw [exec_bind_ok hact]
        exact hd

/-- What was read may be put together. -/
theorem Splits.map {x : Call ε (σ × τ) α} {read : Call ε σ β} {act : β → Call ε τ α}
    (h : Splits x read act) {g : β → γ} {act' : γ → Call ε τ α} (hact : ∀ b, act' (g b) = act b) :
    Splits x (do return g (← read)) act' where
  ok := by
    intro s t a s' t'
    rw [h.ok]
    constructor
    · rintro ⟨b, hb, hexec⟩
      refine ⟨g b, ?_, by rw [hact, hexec]⟩
      rw [exec_bind_ok hb]
      rfl
    · rintro ⟨c, hc, hexec⟩
      obtain ⟨b, s₁, hb, hpure⟩ := exec_bind_eq_ok hc
      obtain ⟨hg, rfl⟩ := Prod.mk.inj hpure
      obtain rfl := Except.ok.inj hg
      exact ⟨b, hb, by rw [← hact, hexec]⟩
  explained := by
    intro s t
    obtain ⟨b, hb⟩ := h.explained s t
    exact ⟨g b, by rwa [hact]⟩

/-- A call that starts by working on the second part. -/
theorem splits_onSnd_bind [Nonempty β] {y : Call ε τ α} {f : α → Call ε (σ × τ) γ}
    {read : Call ε σ β} {act : α → β → Call ε τ γ} (h : ∀ a, Splits (f a) read (act a)) :
    Splits (onSnd y >>= f) read fun b => y >>= fun a => act a b := by
  have hsplit : Splits (onSnd y >>= f) _ fun b => y >>= fun a => act a b :=
    ((splits_onSnd y).bind h).map (g := Prod.snd) fun _ => rfl
  simpa using hsplit

end Call
