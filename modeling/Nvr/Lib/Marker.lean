import Mathlib.Tactic.Common

/-!
# A marker at the end of what is old

Messages in a pipe, the oldest first. Some are old data, the others clean, and a marker is sent
behind the last data. As long as every piece of data has a marker behind it the pipe is settled:
whoever sees the marker come out knows that no data follow.
-/

namespace Marker

variable {M : Type} {clean mark : M → Prop} {l l' out : List M} {m : M}

/-- Behind whatever is not clean there is a marker. -/
def Settled (clean mark : M → Prop) : List M → Prop
  | [] => True
  | m :: l => (clean m ∨ ∃ x ∈ l, mark x) ∧ Settled clean mark l

theorem settled_append :
    Settled clean mark (l ++ l') ↔
      (Settled clean mark l ∨ ∃ x ∈ l', mark x) ∧ Settled clean mark l' := by
  induction l with
  | nil => simp [Settled]
  | cons m l ih =>
      have hmark : (∃ x ∈ l ++ l', mark x) ↔ (∃ x ∈ l, mark x) ∨ ∃ x ∈ l', mark x := by
        simp only [List.mem_append, or_and_right, exists_or]
      rw [List.cons_append, Settled, Settled, ih, hmark]
      generalize (∃ x ∈ l, mark x) = e
      generalize (∃ x ∈ l', mark x) = e'
      tauto

theorem settled_of_clean (h : ∀ m ∈ l, clean m) : Settled clean mark l := by
  induction l with
  | nil => trivial
  | cons m l ih =>
      exact ⟨.inl (h m List.mem_cons_self), ih fun x hx => h x (List.mem_cons_of_mem m hx)⟩

/-- Where no marker is left there are no data. -/
theorem Settled.all_clean (h : Settled clean mark l) (hmark : ∀ m ∈ l, ¬mark m) :
    ∀ m ∈ l, clean m := by
  induction l with
  | nil => exact fun m hm => by cases hm
  | cons x l ih =>
      intro m hm
      rcases List.mem_cons.1 hm with rfl | hm
      · rcases h.1 with hclean | ⟨y, hy, hmy⟩
        · exact hclean
        · exact absurd hmy (hmark y (List.mem_cons_of_mem _ hy))
      · exact ih h.2 (fun y hy => hmark y (List.mem_cons_of_mem x hy)) m hm

/-- A marker settles all before it. -/
theorem settled_mark (hmark : mark m) (hclean : clean m) (l : List M) :
    Settled clean mark (l ++ [m]) :=
  settled_append.2 ⟨.inr ⟨m, List.mem_singleton_self m, hmark⟩, .inl hclean, trivial⟩

/-- A message is replaced by others on the way: a marker stays, and no data come of what is clean. -/
theorem Settled.replace (h : Settled clean mark (l ++ m :: l')) (hmark : mark m → m ∈ out)
    (hclean : clean m → ∀ x ∈ out, clean x) : Settled clean mark (l ++ (out ++ l')) := by
  obtain ⟨hleft, hm, hright⟩ := settled_append.1 h
  refine settled_append.2 ⟨?_, settled_append.2 ⟨?_, hright⟩⟩
  · rcases hleft with hl | ⟨x, hx, hmx⟩
    · exact .inl hl
    · rcases List.mem_cons.1 hx with rfl | hx
      · exact .inr ⟨x, List.mem_append_left l' (hmark hmx), hmx⟩
      · exact .inr ⟨x, List.mem_append_right out hx, hmx⟩
  · exact hm.imp_left fun hm => settled_of_clean (hclean hm)

/-- Clean messages may be put in anywhere. -/
theorem Settled.insert (h : Settled clean mark (l ++ l')) (hout : ∀ x ∈ out, clean x) :
    Settled clean mark (l ++ (out ++ l')) := by
  obtain ⟨hleft, hright⟩ := settled_append.1 h
  refine settled_append.2 ⟨?_, settled_append.2 ⟨.inl (settled_of_clean hout), hright⟩⟩
  rcases hleft with hl | ⟨x, hx, hmx⟩
  · exact .inl hl
  · exact .inr ⟨x, List.mem_append_right out hx, hmx⟩

end Marker
