import DocPath.Proofs.Access

/-!
# Deleting one place

A path of keys and indices that is answered with nothing takes one entry or element out of its parent,
and leaves every other thing as it is. Where nothing is at the end of the path there is nothing to take
out, and no parent is made on the way.

* `Navigator.Removes` — a value without what a step finds in it;
* `Navigator.putChild_absent` — **one step either finds nothing and stays, or removes what it finds**;
* `Navigator.putAlong_childAlong` — what is found at a place, put back, changes nothing;
* `Path.delete_exact` — the law for whole paths.
-/

namespace DocPath

namespace Navigator

/-- What a step finds in a value, and the value without it: the other entries, or the other elements,
in their order. -/
inductive Removes : Navigator → Value → Value → Value → Prop
  | entry {name : String} {before after : Entries Value} {u : Value}
      (hbefore : name ∉ Entries.keys before) (hafter : name ∉ Entries.keys after) :
      Removes (.key name) (.mapping (before ++ (name, u) :: after)) u (.mapping (before ++ after))
  | element {index : Int64} {before after : List Value} {u : Value}
      (hindex : Sequence.resolveIndex index (before ++ u :: after).length = some before.length) :
      Removes (.nth index) (.sequence (before ++ u :: after)) u (.sequence (before ++ after))

variable {n : Navigator} {path : List Navigator}

/-! ### One step -/

theorem removes_eraseIdx {index : Int64} {vs : List Value} {i : Nat}
    (hindex : Sequence.resolveIndex index vs.length = some i) (hi : i < vs.length) :
    Removes (.nth index) (.sequence vs) vs[i] (.sequence (vs.eraseIdx i)) := by
  obtain ⟨before, u, after, rfl, rfl⟩ := exists_split_at hi
  have hrest := replaceAt_split before after u .absent
  rw [Exchange.replaceAt, Focus.value?, Option.toList_none, List.append_nil] at hrest
  rw [List.getElem_append_right (Nat.le_refl _), hrest]
  simp only [Nat.sub_self, List.getElem_cons_zero]
  exact .element hindex

/-- **One step either finds nothing and leaves the value, or takes out what it finds.** -/
theorem putChild_absent (hn : n.isAccess = true) {v : Value} (hv : v.Clean) :
    (n.child v = .undefined ∧ n.putChild v .absent = .ok (.value v)) ∨
      ((n.child v).isDefined = true ∧
        ∃ v', n.Removes v (n.child v) v' ∧ n.putChild v .absent = .ok (.value v')) := by
  cases n with
  | key name =>
    cases v with
    | mapping m =>
      have hput : (key name).putChild (.mapping m) .absent =
          .ok (.value (.mapping (Entries.erase m name))) := rfl
      have hchild : (key name).child (.mapping m) = (Entries.get? m name).getD .undefined := rfl
      rw [hput, hchild]
      cases hg : Entries.get? m name with
      | none =>
        rw [Entries.erase_of_get?_none hg]
        exact .inl ⟨rfl, rfl⟩
      | some u =>
        obtain ⟨before, after, rfl, hbefore, hafter, herase⟩ := Entries.exists_split hv.distinct hg
        rw [herase]
        exact .inr ⟨hv.isDefined_of_get? hg, _, .entry hbefore hafter, rfl⟩
    | _ => exact .inl ⟨rfl, rfl⟩
  | nth index =>
    cases v with
    | sequence vs =>
      cases hindex : Sequence.resolveIndex index vs.length with
      | none => exact .inl ⟨child_nth_of_none hindex, putChild_nth_of_none hindex .absent⟩
      | some i =>
        have hi := lt_of_resolveIndex hindex
        rw [putChild_nth hindex, child_nth hindex, List.getElem?_eq_getElem hi, Option.getD_some]
        exact .inr ⟨(hv.of_mem_sequence (List.getElem_mem hi)).isDefined, _,
          removes_eraseIdx hindex hi, rfl⟩
    | _ => exact .inl ⟨rfl, rfl⟩
  | _ => exact absurd hn Bool.false_ne_true

/-- A step that finds something takes every answer about it. -/
theorem putChild_of_isDefined (hn : n.isAccess = true) {v : Value}
    (hd : (n.child v).isDefined = true) (r : Focus) : ∃ v', n.putChild v r = .ok (.value v') := by
  cases n with
  | key name =>
    cases v with
    | mapping m => exact ⟨_, rfl⟩
    | _ => exact absurd hd Bool.false_ne_true
  | nth index =>
    cases v with
    | sequence vs =>
      cases hindex : Sequence.resolveIndex index vs.length with
      | none =>
        rw [child_nth_of_none hindex] at hd
        exact absurd hd Bool.false_ne_true
      | some i => exact ⟨_, putChild_nth hindex r⟩
    | _ => exact absurd hd Bool.false_ne_true
  | _ => exact absurd hn Bool.false_ne_true

/-- What a step finds, put back, changes nothing. -/
theorem putChild_child (hn : n.isAccess = true) {v : Value} (hv : v.Clean) :
    n.putChild v (.value (n.child v)) = .ok (.value v) := by
  obtain ⟨put, hx⟩ := exchange_access hn v
  rw [putChild, hx]
  exact (exchange_restores (descends_of_isAccess hn).restores hv hx).rebuild

/-- Something is found in defined values only. -/
theorem isDefined_of_child {v : Value} (h : (n.child v).isDefined = true) : v.isDefined = true := by
  cases v with
  | undefined => cases n <;> exact h
  | _ => rfl

theorem clean_child (hn : n.isAccess = true) {v : Value} (hv : v.Clean) : (n.child v).Clean :=
  (descends_of_isAccess hn).restores.clean hv (reach_access hn v) _ (List.mem_singleton_self _)

/-! ### Paths -/

theorem clean_childAlong (hp : ∀ n ∈ path, n.isAccess = true) {v : Value} (hv : v.Clean) :
    (childAlong path v).Clean := by
  induction path generalizing v with
  | nil => exact hv
  | cons n path ih =>
    obtain ⟨hn, hp⟩ := List.forall_mem_cons.1 hp
    exact ih hp (clean_child hn hv)

theorem isDefined_of_childAlong {v : Value} (h : (childAlong path v).isDefined = true) :
    v.isDefined = true := by
  induction path generalizing v with
  | nil => exact h
  | cons n path ih => exact isDefined_of_child (ih h)

/-- **What is found at a place, put back, changes nothing.** -/
theorem putAlong_childAlong (hp : ∀ n ∈ path, n.isAccess = true) {v : Value} (hv : v.Clean) :
    putAlong path v (.value (childAlong path v)) = .ok (.value v) := by
  induction path generalizing v with
  | nil => rfl
  | cons n path ih =>
    obtain ⟨hn, hp⟩ := List.forall_mem_cons.1 hp
    rw [childAlong, putAlong, ih hp (clean_child hn hv)]
    exact putChild_child hn hv

/-- Where something is found, any value can be put. -/
theorem putAlong_of_isDefined (hp : ∀ n ∈ path, n.isAccess = true) {v : Value}
    (hd : (childAlong path v).isDefined = true) (w : Value) :
    ∃ v', putAlong path v (.value w) = .ok (.value v') := by
  induction path generalizing v with
  | nil => exact ⟨w, rfl⟩
  | cons n path ih =>
    obtain ⟨hn, hp⟩ := List.forall_mem_cons.1 hp
    obtain ⟨u, hput⟩ := ih hp hd
    rw [putAlong, hput]
    exact putChild_of_isDefined hn (isDefined_of_childAlong hd) (.value u)

end Navigator

/-- **Deleting along keys and indices always succeeds, and takes out one thing.** Where the path finds
nothing the document stays as it is. Otherwise what is found is taken out of its parent, all else keeping
its order, and the document is the one in which this parent is written. That no mapping has a key twice
is what being an ordered mapping means. -/
theorem Path.delete_exact (c : List Navigator) (n : Navigator) (config : Config)
    (hc : ∀ m ∈ c, m.isAccess = true) (hn : n.isAccess = true) {v : Value} (hu : v.UndefinedFree)
    (hw : v.WellFormed) :
    let parent : Path := ⟨c, config⟩
    let whole : Path := ⟨c ++ [n], config⟩
    ∃ x u, parent.select v = .ok [x] ∧ whole.select v = .ok [u] ∧
      (u = .undefined → whole.setValue .absent v = .ok v) ∧
      (u ≠ .undefined → ∃ x' v', n.Removes x u x' ∧ whole.setValue .absent v = .ok v' ∧
        parent.setValue (.value x') v = .ok v' ∧ (c = [] → v' = x')) := by
  intro parent whole
  have hp : ∀ m ∈ c ++ [n], m.isAccess = true :=
    List.forall_mem_append.2 ⟨hc, List.forall_mem_singleton.2 hn⟩
  have hv : v.Clean := (Value.Sound.mk hu hw).clean
  have hx := Navigator.clean_childAlong hc hv
  refine ⟨Navigator.childAlong c v, n.child (Navigator.childAlong c v), parent.select_access hc v,
    ?_, ?_⟩
  · rw [whole.select_access hp, Navigator.childAlong_append]
    rfl
  -- the answer goes back through the last step, and then through those before it
  have hwhole : whole.setValue .absent v =
      (n.putChild (Navigator.childAlong c v) .absent >>= Navigator.putAlong c v) >>= whole.finish := by
    rw [whole.setValue_access hp, Navigator.putAlong_append]
    rfl
  rcases Navigator.putChild_absent hn hx with ⟨hmissing, hput⟩ | ⟨hd, x', hremoves, hput⟩
  · rw [hmissing, hwhole, hput]
    refine ⟨fun _ => ?_, fun h => absurd rfl h⟩
    show Navigator.putAlong c v (.value (Navigator.childAlong c v)) >>= whole.finish = _
    rw [Navigator.putAlong_childAlong hc hv]
    rfl
  · obtain ⟨v', hv'⟩ := Navigator.putAlong_of_isDefined hc (Navigator.isDefined_of_child hd) x'
    have hparent : parent.setValue (.value x') v = .ok v' := by
      rw [parent.setValue_access hc, hv']
      rfl
    refine ⟨fun h => ?_, fun _ => ⟨x', v', hremoves, ?_, hparent, ?_⟩⟩
    · rw [h] at hd
      exact absurd hd Bool.false_ne_true
    · rw [hwhole, hput]
      show Navigator.putAlong c v (.value x') >>= whole.finish = _
      rw [hv']
      rfl
    · rintro rfl
      cases hv'
      rfl

/-- An entry in the last but one of two elements is taken out, and nothing around it changes. -/
theorem Path.delete_exact_nested :
    let c : List Navigator := [.key "a", .nth (-2)]
    let v : Value := .mapping
      [("a", .sequence [.mapping [("h", .null), ("k", .bool true), ("l", .null)], .null]), ("b", .null)]
    let v' : Value := .mapping
      [("a", .sequence [.mapping [("h", .null), ("l", .null)], .null]), ("b", .null)]
    v.UndefinedFree ∧ v.WellFormed ∧
      (⟨c ++ [.key "k"], {}⟩ : Path).setValue .absent v = .ok v' ∧
      ∃ x x', (Navigator.key "k").Removes x (.bool true) x' ∧
        (⟨c, {}⟩ : Path).setValue (.value x') v = .ok v' := by
  intro c v v'
  have hu : v.UndefinedFree := by
    simp [v, Value.UndefinedFree, Value.AllUndefinedFree, Value.EntriesUndefinedFree]
  have hw : v.WellFormed := by
    simp [v, Value.WellFormed, Value.AllWellFormed, Value.EntriesWellFormed, Entries.Distinct,
      Entries.keys]
  have hc : ∀ n ∈ c ++ [.key "k"], n.isAccess = true := by decide
  have hk : (⟨c ++ [.key "k"], {}⟩ : Path).select v = .ok [.bool true] :=
    Path.select_access ⟨c ++ [.key "k"], {}⟩ hc v
  have hwhole : (⟨c ++ [.key "k"], {}⟩ : Path).setValue .absent v = .ok v' :=
    Path.setValue_access ⟨c ++ [.key "k"], {}⟩ hc .absent v
  obtain ⟨x, u, -, hu', -, hdelete⟩ :=
    Path.delete_exact c (.key "k") {} (by decide) rfl hu hw
  obtain rfl : u = .bool true := by simpa using hu'.symm.trans hk
  obtain ⟨x', v'', hremoves, hv'', hparent, -⟩ := hdelete (by simp)
  obtain rfl : v' = v'' := Except.ok.inj (hwhole.symm.trans hv'')
  exact ⟨hu, hw, hwhole, x, x', hremoves, hparent⟩

end DocPath
