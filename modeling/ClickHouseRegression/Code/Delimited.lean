import Mathlib

/-! Codes that use one separator for every bracket. A rest stops a word if it is empty or starts
with the separator; a value is unique under its code if the code before such a rest can be read
in one way only. -/
namespace ClickHouseRegression.Delimited

variable {α β γ : Type*} (sep : α)

/-- The rest is empty or starts with the separator. -/
def Stops (r : List α) : Prop := ∀ c ∈ r.head?, c = sep

@[simp] theorem stops_nil : Stops sep [] := by
  simp [Stops]

@[simp] theorem stops_cons (c : α) (r : List α) : Stops sep (c :: r) ↔ c = sep := by
  simp [Stops]

/-- A word without the separator ends where its rest stops it. -/
theorem word_unique {w w' r r' : List α} (hw : sep ∉ w) (hw' : sep ∉ w') (hr : Stops sep r)
    (hr' : Stops sep r') (h : w ++ r = w' ++ r') : w = w' ∧ r = r' := by
  induction w generalizing w' with
  | nil =>
    cases w' with
    | nil => exact ⟨rfl,h⟩
    | cons c w' =>
      rw [List.nil_append,List.cons_append] at h
      rw [h,stops_cons] at hr
      exact absurd (hr ▸ List.mem_cons_self) hw'
  | cons c w ih =>
    cases w' with
    | nil =>
      rw [List.nil_append,List.cons_append] at h
      rw [← h,stops_cons] at hr'
      exact absurd (hr' ▸ List.mem_cons_self) hw
    | cons c' w' =>
      obtain ⟨rfl,ht⟩ := List.cons.inj h
      obtain ⟨rfl,hr⟩ := ih (fun hc => hw (List.mem_cons_of_mem c hc))
        (fun hc => hw' (List.mem_cons_of_mem c hc)) ht
      exact ⟨rfl,hr⟩

/-- The code of `b` before a stopping rest is the code only of values with its meaning. -/
def UniqueAt (code : β → List α) (meaning : β → γ) (b : β) : Prop :=
  ∀ b' r r', Stops sep r → Stops sep r' → code b ++ r = code b' ++ r' →
    meaning b = meaning b' ∧ r = r'

variable {sep} {code : β → List α} {meaning : β → γ}

theorem UniqueAt.closed {b : β} (h : UniqueAt sep code meaning b) {b' : β} {r r' : List α}
    (he : code b ++ sep :: r = code b' ++ sep :: r') : meaning b = meaning b' ∧ r = r' := by
  obtain ⟨hb,hr⟩ := h b' (sep :: r) (sep :: r') (by simp) (by simp) he
  exact ⟨hb,(List.cons.inj hr).2⟩

/-- The codes of a list, each closed by the separator. -/
def closeAll (sep : α) (code : β → List α) (bs : List β) : List α :=
  bs.flatMap fun b => code b ++ [sep]

theorem closeAll_cons (b : β) (bs : List β) :
    closeAll sep code (b :: bs) = code b ++ sep :: closeAll sep code bs := by
  simp [closeAll]

/-- A list of closed codes ends where no further code starts. -/
theorem closeAll_unique (hcode : ∀ b, ∃ c t, code b = c :: t ∧ c ≠ sep) {bs : List β}
    (h : ∀ b ∈ bs, UniqueAt sep code meaning b) :
    UniqueAt sep (closeAll sep code) (List.map meaning) bs := by
  have hstart : ∀ b bs r, ¬ Stops sep (closeAll sep code (b :: bs) ++ r) := by
    intro b bs r hs
    obtain ⟨c,t,hc,hne⟩ := hcode b
    rw [closeAll_cons,hc,List.cons_append,List.cons_append,stops_cons] at hs
    exact hne hs
  induction bs with
  | nil =>
    intro bs' r r' hr hr' he
    cases bs' with
    | nil => exact ⟨rfl,he⟩
    | cons b' bs' =>
      have he' : r = closeAll sep code (b' :: bs') ++ r' := he
      exact absurd (he' ▸ hr) (hstart b' bs' r')
  | cons b bs ih =>
    intro bs' r r' hr hr' he
    cases bs' with
    | nil =>
      have he' : closeAll sep code (b :: bs) ++ r = r' := he
      exact absurd (he' ▸ hr') (hstart b bs r)
    | cons b' bs' =>
      rw [closeAll_cons,closeAll_cons,List.append_assoc,List.append_assoc] at he
      obtain ⟨hb,he⟩ := (h b List.mem_cons_self).closed he
      obtain ⟨hbs,hr⟩ := ih (fun b hb => h b (List.mem_cons_of_mem _ hb)) bs' r r' hr hr' he
      exact ⟨by rw [List.map_cons,List.map_cons,hb,hbs],hr⟩

end ClickHouseRegression.Delimited
