import Mathlib

/-!
# Lib — the farthest hop

Elements are hops along a line: from the position `t` some can be taken, and taking `f` leads to
`key f`. The greedy walk takes the farthest of them until it is at the goal or finds none.
-/

namespace LitestreamSoak.Lib

open List

variable {α β : Type}

/-! ## §1 — the best of a list -/

section Best

variable (eligible : β → Bool) (better : β → β → Bool)
variable {l : List β}

/-- One step of the scan: the candidate replaces the best so far only if it is better. -/
def keepBest (best : Option β) (c : β) : Option β :=
  if !eligible c then best
  else
    match best with
    | none => some c
    | some b => if better c b then some c else some b

/-- The scan that keeps the best eligible element of a list, with what it finds. -/
def bestOf (l : List β) : Option β := l.foldl (keepBest eligible better) none

variable {eligible better}

/-- The scan from `best` on keeps an element of the list or what it had, and finds nothing only
where nothing was eligible. -/
theorem foldl_keepBest_eq_none {best : Option β}
    (h : l.foldl (keepBest eligible better) best = none) :
    best = none ∧ ∀ c ∈ l, eligible c = false := by
  induction l generalizing best with
  | nil => exact ⟨h, nofun⟩
  | cons c l ih =>
    obtain ⟨hstep, hrest⟩ := ih h
    cases hc : eligible c with
    | true =>
      -- an eligible candidate is kept or beaten, so something is there
      cases best with
      | none => simp [keepBest, hc] at hstep
      | some b => grind [keepBest]
    | false =>
      simp only [keepBest, hc, Bool.not_false, if_true] at hstep
      grind

theorem bestOf_eq_none (h : bestOf eligible better l = none) :
    ∀ c ∈ l, eligible c = false :=
  (foldl_keepBest_eq_none h).2

variable [LinearOrder α] (key : β → α)

theorem foldl_keepBest_eq_some (hup : ∀ c b, better c b = true → key b ≤ key c)
    (hkeep : ∀ c b, better c b = false → key c ≤ key b) {best : Option β} {b : β}
    (h : l.foldl (keepBest eligible better) best = some b) :
    (best = some b ∨ b ∈ l ∧ eligible b = true) ∧ (∀ d ∈ best, key d ≤ key b) ∧
      ∀ c ∈ l, eligible c = true → key c ≤ key b := by
  induction l generalizing best with
  | nil => grind
  | cons c l ih =>
    obtain ⟨hfrom, hbest, hrest⟩ := ih h
    have hold : keepBest eligible better best c = best →
        (best = some b ∨ b ∈ c :: l ∧ eligible b = true) ∧ (∀ d ∈ best, key d ≤ key b) := by
      intro hsame
      rw [hsame] at hfrom hbest
      exact ⟨hfrom.imp_right fun hb => ⟨mem_cons_of_mem c hb.1, hb.2⟩, hbest⟩
    have hnew : keepBest eligible better best c = some c → eligible c = true →
        (best = some b ∨ b ∈ c :: l ∧ eligible b = true) ∧ key c ≤ key b := by
      intro hc helig
      rw [hc] at hfrom hbest
      refine ⟨.inr ?_, hbest c rfl⟩
      rcases hfrom with hb | hb
      · obtain rfl := Option.some.inj hb
        exact ⟨mem_cons_self, helig⟩
      · exact ⟨mem_cons_of_mem c hb.1, hb.2⟩
    -- what is left is that the candidate itself is no better than the result
    suffices hc : (best = some b ∨ b ∈ c :: l ∧ eligible b = true) ∧
        (∀ d ∈ best, key d ≤ key b) ∧ (eligible c = true → key c ≤ key b) from
      ⟨hc.1, hc.2.1, fun d hd helig => by
        rcases mem_cons.mp hd with rfl | hd
        · exact hc.2.2 helig
        · exact hrest d hd helig⟩
    cases helig : eligible c with
    | false =>
      have hsame : keepBest eligible better best c = best := by simp [keepBest, helig]
      exact ⟨(hold hsame).1, (hold hsame).2, nofun⟩
    | true =>
      cases best with
      | none => grind [keepBest]
      | some d =>
        cases hbetter : better c d with
        | true =>
          have hc : keepBest eligible better (some d) c = some c := by
            simp [keepBest, helig, hbetter]
          grind [Option.some.inj]
        | false => grind [keepBest]

/-- **What the scan finds** is in the list, eligible, and has the greatest key of those. -/
theorem bestOf_eq_some (hup : ∀ c b, better c b = true → key b ≤ key c)
    (hkeep : ∀ c b, better c b = false → key c ≤ key b) {b : β}
    (h : bestOf eligible better l = some b) :
    b ∈ l ∧ eligible b = true ∧ ∀ c ∈ l, eligible c = true → key c ≤ key b := by
  obtain ⟨hfrom, -, hall⟩ := foldl_keepBest_eq_some key hup hkeep h
  exact ⟨(hfrom.resolve_left nofun).1, (hfrom.resolve_left nofun).2, hall⟩

end Best

/-! ## §2 — walks -/

section Walks

variable (key : β → α)

def endOf : α → List β → α
  | t, [] => t
  | _, f :: l => endOf (key f) l

def Follows (hop : α → β → Prop) : α → List β → Prop
  | _, [] => True
  | t, f :: l => hop t f ∧ Follows hop (key f) l

theorem endOf_eq_getLast (t : α) (l : List β) : endOf key t l = (l.getLast?.map key).getD t := by
  induction l generalizing t with
  | nil => rfl
  | cons f l ih =>
    rw [endOf, ih, getLast?_cons]
    cases l.getLast? <;> rfl

theorem endOf_append (t : α) (l m : List β) :
    endOf key t (l ++ m) = endOf key (endOf key t l) m := by
  induction l generalizing t with
  | nil => rfl
  | cons f l ih => exact ih (key f)

variable [LinearOrder α]

/-- The walk of the loop `while t < goal { t = key (next t) }`, which stops where `next` finds
nothing. -/
inductive Walk (next : α → Option β) (goal : α) : α → List β → Prop where
  | there {t : α} : goal ≤ t → Walk next goal t []
  | stuck {t : α} : t < goal → next t = none → Walk next goal t []
  | hop {t : α} {f : β} {l : List β} :
      t < goal → next t = some f → Walk next goal (key f) l → Walk next goal t (f :: l)

variable {key} {hop : α → β → Prop} {next : α → Option β} {goal : α}

theorem Walk.follows {t : α} {l : List β} (h : Walk key next goal t l)
    (hnext : ∀ t f, t < goal → next t = some f → hop t f) : Follows key hop t l := by
  induction h with
  | there _ => trivial
  | stuck _ _ => trivial
  | hop hlt hf _ ih => exact ⟨hnext _ _ hlt hf, ih⟩

/-- **The farthest hop is as good as any.** Induction on the other walk, which is never ahead: its
hop either ends behind the greedy walk, or can be taken there too and goes no farther than the
greedy one. -/
theorem Walk.reaches {among : List β} (hlater : ∀ t t' f, hop t f → t ≤ t' → t' < key f → hop t' f)
    (hgoal : ∀ t f, hop t f → key f ≤ goal)
    (hsome : ∀ t f, t < goal → next t = some f →
      hop t f ∧ ∀ g ∈ among, hop t g → key g ≤ key f)
    (hnone : ∀ t, t < goal → next t = none → ∀ g ∈ among, ¬ hop t g)
    {t t' : α} {l m : List β} (hl : Walk key next goal t' l) (hm : Follows key hop t m)
    (hmem : ∀ g ∈ m, g ∈ among) (hle : t ≤ t') (hle' : t' ≤ goal) (hend : endOf key t m = goal) :
    endOf key t' l = goal ∧ l.length ≤ m.length := by
  induction m generalizing t t' l with
  | nil =>
    obtain rfl : t = goal := hend
    obtain rfl := le_antisymm hle hle'
    cases hl with
    | there _ => exact ⟨rfl, Nat.le_refl _⟩
    | stuck hlt _ => exact absurd hlt (lt_irrefl _)
    | hop hlt _ _ => exact absurd hlt (lt_irrefl _)
  | cons g m ih =>
    have hmem' : ∀ d ∈ m, d ∈ among := fun d hd => hmem d (mem_cons_of_mem g hd)
    rcases le_or_gt (key g) t' with hbehind | hahead
    · obtain ⟨hthere, hlen⟩ := ih hl hm.2 hmem' hbehind hle' hend
      exact ⟨hthere, Nat.le_succ_of_le hlen⟩
    · have hg := hlater t t' g hm.1 hle hahead
      have hlt : t' < goal := lt_of_lt_of_le hahead (hgoal t g hm.1)
      cases hl with
      | there hge => exact absurd hlt (not_lt_of_ge hge)
      | stuck _ hnext => exact absurd hg (hnone t' hlt hnext g (hmem g mem_cons_self))
      | @hop _ f l _ hnext hrest =>
        obtain ⟨hf, hbest⟩ := hsome t' f hlt hnext
        obtain ⟨hthere, hlen⟩ := ih hrest hm.2 hmem' (hbest g (hmem g mem_cons_self) hg)
          (hgoal t' f hf) hend
        exact ⟨hthere, Nat.succ_le_succ hlen⟩

end Walks

end LitestreamSoak.Lib
