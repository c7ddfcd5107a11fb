import Sana.Search.Proof.Selection

/-!
# What the order of the discovery outputs decides

The fold keeps, for each URL, the first of the hits with the best score. Which facts the URL covers
does not depend on the order of the outputs; which hit stands for it does, if outputs bring hits of
the same best score. The provider of that hit is part of what is selected, and its rank is part of
the key the candidates are sorted by. So the selection is the same in every order exactly if the
hits that can stand for a URL have one provider, and the order of two URLs by rank is the same
whichever hits stand for them.
-/

namespace Sana.Search

open Sana.Lib Sana.Orchestration

/-! ## The fold -/

/-- The hits of one URL. -/
def hitsOf (u : String) (hits : List DiscoveredHit) : List DiscoveredHit :=
  hits.filter fun h => h.canonicalUrl == u

theorem hitsOf_append (u : String) (hits hits' : List DiscoveredHit) :
    hitsOf u (hits ++ hits') = hitsOf u hits ++ hitsOf u hits' := List.filter_append ..

theorem mem_hitsOf {u : String} {hits : List DiscoveredHit} {h : DiscoveredHit} :
    h ∈ hitsOf u hits ↔ h ∈ hits ∧ h.canonicalUrl = u := by
  simp [hitsOf]

/-- The hit that stands for a URL: the first of its hits with the best score. -/
def Stands (hits : List DiscoveredHit) (u : String) (h : DiscoveredHit) : Prop :=
  FirstBest (fun h => h.score) (hitsOf u hits) h

theorem Stands.le {hits : List DiscoveredHit} {u : String} {h x : DiscoveredHit}
    (hs : Stands hits u h) (hx : x ∈ hitsOf u hits) : x.score ≤ h.score :=
  @FirstBest.le _ _ _ (fun h : DiscoveredHit => h.score) _ _ _ hs hx

theorem exists_stands {hits : List DiscoveredHit} {u : String} {x : DiscoveredHit}
    (hx : x ∈ hitsOf u hits) : ∃ h, Stands hits u h :=
  exists_firstBest (List.ne_nil_of_mem hx)

/-- What has been merged of some hits. -/
structure MergedOf (hits : List DiscoveredHit) (d : List (String × Candidate)) : Prop where
  keys : (d.map (·.1)).Nodup
  stands : ∀ u c, (u, c) ∈ d → Stands hits u c.toDiscoveredHit
  facts : ∀ u c, (u, c) ∈ d → ∀ f, f ∈ c.factIds ↔ ∃ h ∈ hitsOf u hits, h.factId = f
  complete : ∀ h ∈ hits, ∃ c, (h.canonicalUrl, c) ∈ d

theorem mergedOf_nil : MergedOf [] [] where
  keys := List.nodup_nil
  stands _ _ h := by cases h
  facts _ _ h := by cases h
  complete _ h := by cases h

theorem hitsOf_singleton_self (hit : DiscoveredHit) : hitsOf hit.canonicalUrl [hit] = [hit] := by
  simp [hitsOf]

theorem hitsOf_singleton_ne {u : String} {hit : DiscoveredHit} (h : hit.canonicalUrl ≠ u) :
    hitsOf u [hit] = [] := by
  simp [hitsOf, h]

/-- An entry of another URL is not touched. -/
theorem MergedOf.other {hits : List DiscoveredHit} {d : List (String × Candidate)}
    (hm : MergedOf hits d) {hit : DiscoveredHit} {u : String} {c : Candidate} (hc : (u, c) ∈ d)
    (hu : hit.canonicalUrl ≠ u) :
    Stands (hits ++ [hit]) u c.toDiscoveredHit ∧
      ∀ f, f ∈ c.factIds ↔ ∃ h ∈ hitsOf u (hits ++ [hit]), h.factId = f := by
  unfold Stands
  rw [hitsOf_append, hitsOf_singleton_ne hu, List.append_nil]
  exact ⟨hm.stands u c hc, hm.facts u c hc⟩

/-- **One hit.** -/
theorem mergedOf_mergeHit {hits : List DiscoveredHit} {d : List (String × Candidate)}
    (hm : MergedOf hits d) (hit : DiscoveredHit) : MergedOf (hits ++ [hit]) (mergeHit d hit) := by
  -- the entry that is written, and what is known of it
  have hwrite : ∀ c : Candidate, ((Dict.set hit.canonicalUrl c d).map (·.1)).Nodup →
      Stands (hits ++ [hit]) hit.canonicalUrl c.toDiscoveredHit →
      (∀ f, f ∈ c.factIds ↔ ∃ h ∈ hitsOf hit.canonicalUrl (hits ++ [hit]), h.factId = f) →
      MergedOf (hits ++ [hit]) (Dict.set hit.canonicalUrl c d) := by
    intro c hkeys hstands hfacts
    have hentry : ∀ u x, (u, x) ∈ Dict.set hit.canonicalUrl c d →
        (u = hit.canonicalUrl ∧ x = c) ∨ ((u, x) ∈ d ∧ hit.canonicalUrl ≠ u) := by
      intro u x hx
      by_cases hu : hit.canonicalUrl = u
      · subst hu
        have hlook := Dict.lookup_of_mem hkeys hx
        rw [Dict.lookup_set, if_pos rfl] at hlook
        exact .inl ⟨rfl, (Option.some.inj hlook).symm⟩
      · rcases Dict.mem_set hx with heq | hx
        · exact absurd (congrArg Prod.fst heq).symm hu
        · exact .inr ⟨hx, hu⟩
    refine ⟨hkeys, fun u x hx => ?_, fun u x hx => ?_, fun h hh => ?_⟩
    · rcases hentry u x hx with ⟨rfl, rfl⟩ | ⟨hx, hu⟩
      · exact hstands
      · exact (hm.other hx hu).1
    · rcases hentry u x hx with ⟨rfl, rfl⟩ | ⟨hx, hu⟩
      · exact hfacts
      · exact (hm.other hx hu).2
    · by_cases hu : h.canonicalUrl = hit.canonicalUrl
      · exact ⟨c, hu ▸ Dict.mem_set_self⟩
      · rcases List.mem_append.mp hh with hh | hh
        · obtain ⟨x, hx⟩ := hm.complete h hh
          have hkept : (h.canonicalUrl, x) ∈ Dict.set hit.canonicalUrl c d ∨
              h.canonicalUrl = hit.canonicalUrl ∧ d.lookup hit.canonicalUrl = some x :=
            Dict.mem_set_of_mem hx
          rcases hkept with hx | ⟨hk, -⟩
          · exact ⟨x, hx⟩
          · exact absurd hk hu
        · rw [List.mem_singleton.mp hh] at hu
          exact absurd rfl hu
  have hsplit : hitsOf hit.canonicalUrl (hits ++ [hit])
      = hitsOf hit.canonicalUrl hits ++ [hit] := by
    rw [hitsOf_append, hitsOf_singleton_self]
  unfold mergeHit
  cases hlook : d.lookup hit.canonicalUrl with
  | none =>
      have hnone : hitsOf hit.canonicalUrl hits = [] := by
        refine List.eq_nil_iff_forall_not_mem.mpr fun h hh => ?_
        obtain ⟨hh, hu⟩ := mem_hitsOf.mp hh
        obtain ⟨c, hc⟩ := hm.complete h hh
        rw [hu] at hc
        exact Dict.lookup_eq_none_iff.mp hlook (List.mem_map_of_mem hc)
      refine hwrite _ ?_ ?_ fun f => ?_
      · rw [Dict.set_of_lookup_eq_none hlook, List.map_append]
        refine List.nodup_append'.mpr ⟨hm.keys, List.nodup_singleton _, ?_⟩
        exact List.disjoint_singleton.mpr (Dict.lookup_eq_none_iff.mp hlook)
      · unfold Stands
        rw [hsplit, hnone]
        exact firstBest_singleton
      · rw [hsplit, hnone]
        simp [eq_comm]
  | some previous =>
      have hprevious := Dict.mem_of_lookup hlook
      have hkeys : ∀ c, ((Dict.set hit.canonicalUrl c d).map (·.1)).Nodup := by
        intro c
        rw [Dict.map_fst_set_of_lookup hlook]
        exact hm.keys
      have hfacts : ∀ f, (f ∈ (if hit.factId ∈ previous.factIds then previous.factIds
          else previous.factIds ++ [hit.factId])) ↔
          ∃ h ∈ hitsOf hit.canonicalUrl (hits ++ [hit]), h.factId = f := by
        intro f
        have hold := hm.facts _ _ hprevious f
        have hmem : (f ∈ (if hit.factId ∈ previous.factIds then previous.factIds
            else previous.factIds ++ [hit.factId])) ↔ f ∈ previous.factIds ∨ hit.factId = f := by
          split
          · rename_i hin
            exact ⟨.inl, fun h => h.elim id fun h => h ▸ hin⟩
          · rw [List.mem_append, List.mem_singleton, eq_comm (a := f)]
        rw [hmem, hold, hsplit]
        constructor
        · rintro (⟨h, hh, hf⟩ | hf)
          · exact ⟨h, List.mem_append_left _ hh, hf⟩
          · exact ⟨hit, List.mem_append_right _ List.mem_cons_self, hf⟩
        · rintro ⟨h, hh, hf⟩
          rcases List.mem_append.mp hh with hh | hh
          · exact .inl ⟨h, hh, hf⟩
          · rw [List.mem_singleton.mp hh] at hf
            exact .inr hf
      have hbest := FirstBest.snoc (hm.stands _ _ hprevious) hit
      rw [← hsplit] at hbest
      dsimp only
      split
      · rename_i hbetter
        rw [if_pos hbetter] at hbest
        exact hwrite _ (hkeys _) hbest hfacts
      · rename_i hnot
        rw [if_neg hnot] at hbest
        exact hwrite _ (hkeys _) hbest hfacts

/-- **The fold.** -/
theorem mergedOf_foldl (hits : List DiscoveredHit) : MergedOf hits (hits.foldl mergeHit []) := by
  induction hits using List.reverseRecOn with
  | nil => exact mergedOf_nil
  | append_singleton hits hit ih =>
      rw [List.foldl_append]
      exact mergedOf_mergeHit ih hit

/-! ## Which output a hit comes from -/

section Outputs

variable {ds ds' : List DiscoveryOutput} {d e : DiscoveryOutput} {u v : String}
  {h k : DiscoveredHit}

/-- The hits of some outputs, in order. -/
def allHits (ds : List DiscoveryOutput) : List DiscoveredHit := ds.flatMap (·.hits)

/-- The output has a hit that can stand for the URL: the first of its best ones, and no output has a
better one. -/
structure Leads (ds : List DiscoveryOutput) (d : DiscoveryOutput) (u : String) (h : DiscoveredHit) :
    Prop where
  mem : d ∈ ds
  stands : Stands d.hits u h
  best : ∀ e ∈ ds, ∀ x ∈ hitsOf u e.hits, x.score ≤ h.score

/-- There is an order in which the hits of `d` for `u` and of `e` for `v` stand together: not if
each of two outputs would have to come before the other. -/
def Together (ds : List DiscoveryOutput) (u v : String) (d e : DiscoveryOutput) : Prop :=
  d = e ∨ (∀ x, ¬Leads ds e u x) ∨ ∀ x, ¬Leads ds d v x

theorem Leads.perm (hl : Leads ds d u h) (hp : ds.Perm ds') : Leads ds' d u h :=
  ⟨hp.mem_iff.mp hl.mem, hl.stands, fun e he => hl.best e (hp.mem_iff.mpr he)⟩

/-- All that lead have the same score. -/
theorem Leads.score_eq (hl : Leads ds d u h) (hl' : Leads ds e u k) : h.score = k.score :=
  le_antisymm (hl'.best d hl.mem h hl.stands.mem) (hl.best e hl'.mem k hl'.stands.mem)

/-- What does not lead is worse. -/
theorem Leads.lt_of_not_leads (hl : Leads ds d u h) (he : e ∈ ds) (hnot : ∀ x, ¬Leads ds e u x) :
    ∀ y ∈ hitsOf u e.hits, y.score < h.score := by
  intro y hy
  by_contra hge
  obtain ⟨x, hx⟩ := exists_stands hy
  refine hnot x ⟨he, hx, fun e' he' z hz => ?_⟩
  exact ((hl.best e' he' z hz).trans (not_lt.mp hge)).trans (hx.le hy)

theorem hitsOf_allHits_cons (d : DiscoveryOutput) (ds : List DiscoveryOutput) :
    hitsOf u (allHits (d :: ds)) = hitsOf u d.hits ++ hitsOf u (allHits ds) := by
  rw [← hitsOf_append]
  rfl

theorem mem_hitsOf_allHits : h ∈ hitsOf u (allHits ds) ↔ ∃ d ∈ ds, h ∈ hitsOf u d.hits := by
  simp only [mem_hitsOf, allHits, List.mem_flatMap]
  constructor
  · rintro ⟨⟨d, hd, hh⟩, hu⟩
    exact ⟨d, hd, hh, hu⟩
  · rintro ⟨d, hd, hh, hu⟩
    exact ⟨⟨d, hd, hh⟩, hu⟩

/-- The hit that stands for a URL comes from the first output that leads. -/
theorem Stands.leads (hs : Stands (allHits ds) u h) :
    ∃ before d after, ds = before ++ d :: after ∧ Leads ds d u h ∧
      ∀ e ∈ before, ∀ x, ¬Leads ds e u x := by
  have hsplit : ∀ l : List DiscoveryOutput, Stands (allHits l) u h →
      ∃ before d after, l = before ++ d :: after ∧ Stands d.hits u h ∧
        ∀ e ∈ before, ∀ x ∈ hitsOf u e.hits, x.score < h.score := by
    intro l hl
    induction l with
    | nil => cases hl.mem
    | cons a l ih =>
        unfold Stands at hl
        rw [hitsOf_allHits_cons] at hl
        rcases hl.of_append with hfirst | ⟨hworse, hrest⟩
        · exact ⟨[], a, l, rfl, hfirst, fun e he => by cases he⟩
        · obtain ⟨before, d, after, rfl, hd, hbefore⟩ := ih hrest
          refine ⟨a :: before, d, after, rfl, hd, fun e he => ?_⟩
          rcases List.mem_cons.mp he with rfl | he
          · exact hworse
          · exact hbefore e he
  obtain ⟨before, d, after, rfl, hd, hbefore⟩ := hsplit ds hs
  have hmem : d ∈ before ++ d :: after := List.mem_append_right _ List.mem_cons_self
  refine ⟨before, d, after, rfl, ⟨hmem, hd, fun e he x hx => ?_⟩, fun e he x hx => ?_⟩
  · exact hs.le (mem_hitsOf_allHits.mpr ⟨e, he, hx⟩)
  · exact absurd (hbefore e he x hx.stands.mem) (not_lt.mpr (hx.best d hmem h hd.mem))

/-- The hits that stand for two URLs in one order stand together. -/
theorem Stands.together (hs : Stands (allHits ds) u h) (hs' : Stands (allHits ds) v k) :
    ∃ d e, Leads ds d u h ∧ Leads ds e v k ∧ Together ds u v d e := by
  obtain ⟨before, d, after, hds, hd, hfirst⟩ := hs.leads
  obtain ⟨before', e, after', hds', he, hfirst'⟩ := hs'.leads
  refine ⟨d, e, hd, he, ?_⟩
  rw [hds] at hds'
  rcases List.append_eq_append_iff.mp hds' with ⟨m, rfl, hm⟩ | ⟨m, rfl, hm⟩
  · cases m with
    | nil => exact .inl (List.cons.inj hm).1
    | cons a m =>
        obtain ⟨rfl, -⟩ := List.cons.inj hm
        exact .inr (.inr (hfirst' d (by simp)))
  · cases m with
    | nil => exact .inl (List.cons.inj hm).1.symm
    | cons a m =>
        obtain ⟨rfl, -⟩ := List.cons.inj hm
        exact .inr (.inl (hfirst e (by simp)))

/-- What leads can be brought to the front. -/
theorem Leads.stands_cons (hl : Leads ds d u h) {rest : List DiscoveryOutput}
    (hsub : ∀ e ∈ rest, e ∈ ds) : Stands (allHits (d :: rest)) u h := by
  unfold Stands
  rw [hitsOf_allHits_cons]
  refine FirstBest.append hl.stands fun y hy => ?_
  obtain ⟨e, he, hy⟩ := mem_hitsOf_allHits.mp hy
  exact hl.best e (hsub e he) y hy

/-- **Two hits that stand together do so in some order of the outputs.** -/
theorem Together.realized (ht : Together ds u v d e) (hd : Leads ds d u h) (he : Leads ds e v k) :
    ∃ ds', ds'.Perm ds ∧ Stands (allHits ds') u h ∧ Stands (allHits ds') v k := by
  have hfront : (d :: ds.erase d).Perm ds := (List.perm_cons_erase hd.mem).symm
  have hsub : ∀ x ∈ ds.erase d, x ∈ ds := fun x hx => List.mem_of_mem_erase hx
  by_cases hde : d = e
  · subst hde
    exact ⟨_, hfront, hd.stands_cons hsub, he.stands_cons hsub⟩
  have hmem : e ∈ ds.erase d := (List.mem_erase_of_ne (Ne.symm hde)).mpr he.mem
  have htwo : (d :: e :: (ds.erase d).erase e).Perm ds :=
    ((List.perm_cons_erase hmem).symm.cons d).trans hfront
  have hrest : ∀ x ∈ (ds.erase d).erase e, x ∈ ds :=
    fun x hx => hsub x (List.mem_of_mem_erase hx)
  rcases ht with heq | hnot | hnot
  · exact absurd heq hde
  · -- `e` does not lead for `u`, so it may come first
    refine ⟨e :: d :: (ds.erase d).erase e, (List.Perm.swap d e _).trans htwo, ?_, ?_⟩
    · unfold Stands
      rw [hitsOf_allHits_cons]
      exact FirstBest.prepend (hd.stands_cons hrest) (hd.lt_of_not_leads he.mem hnot)
    · refine he.stands_cons fun x hx => ?_
      rcases List.mem_cons.mp hx with rfl | hx
      · exact hd.mem
      · exact hrest x hx
  · refine ⟨d :: e :: (ds.erase d).erase e, htwo, ?_, ?_⟩
    · refine hd.stands_cons fun x hx => ?_
      rcases List.mem_cons.mp hx with rfl | hx
      · exact he.mem
      · exact hrest x hx
    · unfold Stands
      rw [hitsOf_allHits_cons]
      exact FirstBest.prepend (he.stands_cons hrest) (he.lt_of_not_leads hd.mem hnot)

end Outputs

/-! ## Similar candidates -/

/-- What the claims about a selected hit name: its URL, its provider and the set of its facts. -/
def Candidate.view (c : Candidate) : String × String × Finset String :=
  (c.canonicalUrl, c.provider, c.facts)

/-- Candidates that differ in nothing the selection shows. -/
def Similar (c c' : Candidate) : Prop := c.view = c'.view

section Similar

variable {c c' : Candidate} {l l' : List Candidate}

theorem Similar.url (h : Similar c c') : c.canonicalUrl = c'.canonicalUrl := congrArg Prod.fst h

theorem Similar.provider (h : Similar c c') : c.provider = c'.provider :=
  congrArg Prod.fst (congrArg Prod.snd h)

theorem Similar.facts (h : Similar c c') : c.facts = c'.facts :=
  congrArg Prod.snd (congrArg Prod.snd h)

theorem Similar.direct (h : Similar c c') : c.direct = c'.direct := by
  unfold Candidate.direct
  rw [h.provider]

variable (classify : Classify) (entity : String)

theorem Similar.identity (h : Similar c c') :
    identity classify entity c = identity classify entity c' := by
  unfold Search.identity classified
  rw [h.url]

theorem Similar.official (h : Similar c c') :
    official classify entity c = official classify entity c' := by
  unfold Search.official classified
  rw [h.url]

theorem Similar.trustedDirect (h : Similar c c') :
    trustedDirect classify entity c = trustedDirect classify entity c' := by
  unfold Search.trustedDirect
  rw [h.official, h.direct]

theorem Similar.gain (h : Similar c c') (s : Selected) : gain s c = gain s c' := by
  unfold Search.gain
  rw [h.facts]

theorem Similar.note (h : Similar c c') (s : Selected) :
    s.note classify entity c = s.note classify entity c' := by
  unfold Selected.note
  rw [h.facts, h.identity]

/-- Similar candidates in the same place. -/
def SimilarAt (v w : Candidate × Nat) : Prop := Similar v.1 w.1 ∧ v.2 = w.2

theorem similarAt_zipIdx (h : List.Forall₂ Similar l l') :
    List.Forall₂ SimilarAt l.zipIdx l'.zipIdx := by
  suffices hfrom : ∀ n, List.Forall₂ SimilarAt (l.zipIdx n) (l'.zipIdx n) from hfrom 0
  induction h with
  | nil => exact fun n => .nil
  | cons hab hl ih => exact fun n => .cons ⟨hab, rfl⟩ (ih (n + 1))

theorem maximumGain_similar (s : Selected) {m m' : List (Candidate × Nat)}
    (h : List.Forall₂ SimilarAt m m') : maximumGain s m = maximumGain s m' := by
  induction h with
  | nil => rfl
  | cons hab hl ih =>
      have hcons : ∀ (v : Candidate × Nat) (l : List (Candidate × Nat)),
          maximumGain s (v :: l) = max (Search.gain s v.1) (maximumGain s l) := fun _ _ => rfl
      rw [hcons, hcons, ih, hab.1.gain]

theorem filter_similar {α β : Type*} {R : α → β → Prop} {p : α → Bool} {q : β → Bool}
    (hpq : ∀ a b, R a b → p a = q b) {m : List α} {m' : List β} (h : List.Forall₂ R m m') :
    List.Forall₂ R (m.filter p) (m'.filter q) := by
  refine List.rel_filter (fun a b hab => ?_) h
  show p a = true ↔ q b = true
  rw [hpq a b hab]

/-- The place that is chosen among similar ones. -/
theorem place_eq {v w : Option (Candidate × Nat)} (h : Option.Rel SimilarAt v w) :
    v.map Prod.snd = w.map Prod.snd := by
  cases h with
  | none => rfl
  | some h => exact congrArg some h.2

theorem chooseMost_similar (s : Selected) (h : List.Forall₂ Similar l l') :
    chooseMost s l = chooseMost s l' := by
  refine place_eq (argmax_forall₂ (fun v w hvw => ?_) (similarAt_zipIdx h))
  rw [hvw.1.gain, hvw.2]

theorem chooseGain_similar (s : Selected) (h : List.Forall₂ Similar l l') :
    chooseGain classify entity s l = chooseGain classify entity s l' := by
  have hgaining : List.Forall₂ SimilarAt
      (l.zipIdx.filter fun v => decide (Search.gain s v.1 > 0))
      (l'.zipIdx.filter fun v => decide (Search.gain s v.1 > 0)) := by
    refine filter_similar (fun v w hvw => ?_) (similarAt_zipIdx h)
    rw [hvw.1.gain]
  have htrusted := filter_similar (p := fun v : Candidate × Nat =>
    Search.trustedDirect classify entity v.1) (q := fun v : Candidate × Nat =>
    Search.trustedDirect classify entity v.1) (fun v w hvw => hvw.1.trustedDirect classify entity)
    hgaining
  unfold chooseGain
  dsimp only
  have hpool : ∀ {t t' g g' : List (Candidate × Nat)}, List.Forall₂ SimilarAt t t' →
      List.Forall₂ SimilarAt g g' → List.Forall₂ SimilarAt (if t.isEmpty then g else t)
        (if t'.isEmpty then g' else t') := by
    intro t t' g g' ht hg
    cases ht with
    | nil => exact hg
    | cons hab hl => exact .cons hab hl
  have hbest := hpool htrusted hgaining
  refine place_eq (argmin_forall₂ (fun v w hvw => ?_) (filter_similar (fun v w hvw => ?_) hbest))
  · rw [hvw.1.facts, hvw.1.official, hvw.1.identity, hvw.2]
  · rw [hvw.1.gain, maximumGain_similar s hbest]

theorem chooseNew_similar (s : Selected) (h : List.Forall₂ Similar l l') :
    chooseNew classify entity s l = chooseNew classify entity s l' := by
  refine place_eq (argmin_forall₂ (fun v w hvw => ?_) (similarAt_zipIdx h))
  rw [hvw.1.official, hvw.1.identity, hvw.2]

theorem chooseNext_similar (s : Selected) (h : List.Forall₂ Similar l l') :
    chooseNext classify entity s l = chooseNext classify entity s l' := by
  unfold chooseNext
  rw [maximumGain_similar s (similarAt_zipIdx h), chooseGain_similar classify entity s h,
    chooseNew_similar classify entity s h]

theorem targetFacts_similar (h : List.Forall₂ Similar l l') : targetFacts l = targetFacts l' := by
  induction h with
  | nil => rfl
  | cons hab hl ih =>
      have hcons : ∀ (c : Candidate) (l : List Candidate),
          targetFacts (c :: l) = c.facts ∪ targetFacts l := fun _ _ => rfl
      rw [hcons, hcons, hab.facts, ih]

theorem any_similar {p q : Candidate → Bool} (hpq : ∀ a b, Similar a b → p a = q b)
    (h : List.Forall₂ Similar l l') : l.any p = l'.any q := by
  induction h with
  | nil => rfl
  | cons hab hl ih => rw [List.any_cons, List.any_cons, hpq _ _ hab, ih]

theorem enough_similar (target : Finset String) (s : Selected) (h : List.Forall₂ Similar l l') :
    enough classify entity target s l = enough classify entity target s l' := by
  unfold enough
  rw [any_similar (fun a b hab => by rw [hab.identity classify entity]) h]

theorem spread_similar (seen : Finset String) (h : List.Forall₂ Similar l l') :
    List.Forall₂ Similar (spread classify entity seen l).1 (spread classify entity seen l').1 ∧
      List.Forall₂ Similar (spread classify entity seen l).2
        (spread classify entity seen l').2 := by
  induction h generalizing seen with
  | nil => exact ⟨.nil, .nil⟩
  | cons hab hl ih =>
      rw [spread, spread, hab.identity classify entity]
      split
      · exact ⟨(ih seen).1, .cons hab (ih seen).2⟩
      · exact ⟨.cons hab (ih _).1, (ih _).2⟩

theorem map_url_similar (h : List.Forall₂ Similar l l') :
    l.map (·.canonicalUrl) = l'.map (·.canonicalUrl) := by
  induction h with
  | nil => rfl
  | cons hab hl ih => rw [List.map_cons, List.map_cons, ih, hab.url]

theorem map_view_similar (h : List.Forall₂ Similar l l') :
    l.map Candidate.view = l'.map Candidate.view := by
  induction h with
  | nil => rfl
  | cons hab hl ih => rw [List.map_cons, List.map_cons, ih, hab]

theorem selectFast_similar (limit : Nat) (h : List.Forall₂ Similar l l') :
    List.Forall₂ Similar (selectFast classify entity limit l)
      (selectFast classify entity limit l') := by
  have htrusted := filter_similar (fun a b hab => Similar.trustedDirect classify entity hab) h
  unfold selectFast
  dsimp only
  rw [map_url_similar htrusted,
    any_similar (fun a b hab => Similar.official classify entity hab) h]
  split
  · exact greedy_forall₂ (fun s l l' hl => chooseMost_similar s hl)
      (fun s a b hab => hab.note classify entity s) (fun _ _ _ _ => rfl) _ _ htrusted
  · have hspread := spread_similar classify entity ∅ h
    exact List.forall₂_take _ (List.rel_append hspread.1 hspread.2)

theorem selectResearch_similar (limit : Nat) (h : List.Forall₂ Similar l l') :
    List.Forall₂ Similar (selectResearch classify entity limit l)
      (selectResearch classify entity limit l') := by
  unfold selectResearch
  rw [targetFacts_similar h]
  exact greedy_forall₂ (fun s l l' hl => chooseNext_similar classify entity s hl)
    (fun s a b hab => hab.note classify entity s)
    (fun s l l' hl => enough_similar classify entity _ s hl) _ _ h

end Similar

/-! ## The candidates in some order of the outputs -/

section Candidates

variable {ds ds' : List DiscoveryOutput}

/-- The candidates the selection is made from. -/
def candidatesOf (ds : List DiscoveryOutput) : List Candidate := (mergedCandidates ds).map (·.2)

theorem mergedOf_mergedCandidates (ds : List DiscoveryOutput) :
    MergedOf (allHits ds) (mergedCandidates ds) := mergedOf_foldl _

/-- Entries are found under their URLs. -/
theorem url_of_mem {u : String} {c : Candidate} (h : (u, c) ∈ mergedCandidates ds) :
    c.canonicalUrl = u :=
  (mem_hitsOf.mp ((mergedOf_mergedCandidates ds).stands u c h).mem).2

theorem map_url_candidatesOf (ds : List DiscoveryOutput) :
    (candidatesOf ds).map (·.canonicalUrl) = (mergedCandidates ds).map (·.1) := by
  rw [candidatesOf, List.map_map]
  exact List.map_congr_left fun p hp => url_of_mem (u := p.1) (c := p.2) hp

theorem nodup_url_candidatesOf (ds : List DiscoveryOutput) :
    ((candidatesOf ds).map (·.canonicalUrl)).Nodup := by
  rw [map_url_candidatesOf]
  exact (mergedOf_mergedCandidates ds).keys

theorem mem_candidatesOf {c : Candidate} (h : c ∈ candidatesOf ds) :
    (c.canonicalUrl, c) ∈ mergedCandidates ds := by
  obtain ⟨⟨u, c'⟩, hmem, rfl⟩ := List.mem_map.mp h
  have hu := url_of_mem hmem
  rwa [hu]

/-- The candidate of a URL is the hit that stands for it, -/
theorem stands_of_mem {c : Candidate} (h : c ∈ candidatesOf ds) :
    Stands (allHits ds) c.canonicalUrl c.toDiscoveredHit :=
  (mergedOf_mergedCandidates ds).stands _ _ (mem_candidatesOf h)

/-- with the facts of all hits for it. -/
theorem mem_facts_of_mem {c : Candidate} (h : c ∈ candidatesOf ds) (f : String) :
    f ∈ c.facts ↔ ∃ x ∈ hitsOf c.canonicalUrl (allHits ds), x.factId = f := by
  rw [Candidate.facts, List.mem_toFinset]
  exact (mergedOf_mergedCandidates ds).facts _ _ (mem_candidatesOf h) f

/-- A hit has a candidate. -/
theorem exists_candidate {u : String} {h : DiscoveredHit} (hs : Stands (allHits ds) u h) :
    ∃ c ∈ candidatesOf ds, c.toDiscoveredHit = h ∧ c.canonicalUrl = u := by
  obtain ⟨hmem, hu⟩ := mem_hitsOf.mp hs.mem
  obtain ⟨c, hc⟩ := (mergedOf_mergedCandidates ds).complete h hmem
  rw [hu] at hc
  refine ⟨c, List.mem_map_of_mem hc, ?_, url_of_mem hc⟩
  exact ((mergedOf_mergedCandidates ds).stands u c hc).unique hs

theorem mem_hitsOf_allHits_perm (hp : ds.Perm ds') {u : String} {h : DiscoveredHit} :
    h ∈ hitsOf u (allHits ds) ↔ h ∈ hitsOf u (allHits ds') := by
  rw [mem_hitsOf_allHits, mem_hitsOf_allHits]
  simp only [hp.mem_iff]

/-- Every order has candidates for the same URLs, about the same facts. -/
theorem exists_candidate_perm (hp : ds.Perm ds') {c : Candidate} (hc : c ∈ candidatesOf ds) :
    ∃ c' ∈ candidatesOf ds', c'.canonicalUrl = c.canonicalUrl ∧ c'.facts = c.facts := by
  have hmem := (mem_hitsOf_allHits_perm hp).mp (stands_of_mem hc).mem
  obtain ⟨h, hs⟩ := exists_stands hmem
  obtain ⟨c', hc', -, hu⟩ := exists_candidate hs
  refine ⟨c', hc', hu, Finset.ext fun f => ?_⟩
  rw [mem_facts_of_mem hc, mem_facts_of_mem hc', hu]
  simp only [mem_hitsOf_allHits_perm hp]

/--
The hits that can stand for a URL have one provider, and where two URLs are ordered by rank, they
are ordered the same whichever two hits stand for them together.
-/
structure Steady (ds : List DiscoveryOutput) : Prop where
  provider : ∀ u d e h k, Leads ds d u h → Leads ds e u k → h.provider = k.provider
  order : ∀ u v d e h k d' e' h' k', Leads ds d u h → Leads ds e v k → Together ds u v d e →
    Leads ds d' u h' → Leads ds e' v k' → Together ds u v d' e' → h.score = k.score →
    (h.provider = "direct" ↔ k.provider = "direct") →
    toLex (h.rank, u) < toLex (k.rank, v) → toLex (h'.rank, u) < toLex (k'.rank, v)

/-- The selection is the same in every order of the outputs: the URLs in order, their providers and
their facts. -/
def OrderFree (ds : List DiscoveryOutput) : Prop :=
  ∀ (classify : Classify) (entity : String) (mode : SearchMode) (limit : Nat), 1 ≤ limit →
    ∀ ds', ds'.Perm ds →
      (select classify entity mode limit ds').selected.map Candidate.view
        = (select classify entity mode limit ds).selected.map Candidate.view

variable {classify : Classify} {entity : String}

/-- A steady order by keys. -/
theorem Steady.rankKey_le (hs : Steady ds) (hp : ds'.Perm ds) {c k c' k' : Candidate}
    (hc : c ∈ candidatesOf ds) (hk : k ∈ candidatesOf ds) (hc' : c' ∈ candidatesOf ds')
    (hk' : k' ∈ candidatesOf ds') (hcu : c'.canonicalUrl = c.canonicalUrl)
    (hku : k'.canonicalUrl = k.canonicalUrl)
    (hle : rankKey classify entity c' ≤ rankKey classify entity k') :
    rankKey classify entity c ≤ rankKey classify entity k := by
  by_cases huv : c.canonicalUrl = k.canonicalUrl
  · rw [List.inj_on_of_nodup_map (nodup_url_candidatesOf ds) hc hk huv]
  have hstands' : Stands (allHits ds') c.canonicalUrl c'.toDiscoveredHit := hcu ▸ stands_of_mem hc'
  have hstandsk' : Stands (allHits ds') k.canonicalUrl k'.toDiscoveredHit := hku ▸ stands_of_mem hk'
  obtain ⟨d, e, hd, he, htogether⟩ := (stands_of_mem hc).together (stands_of_mem hk)
  obtain ⟨d', e', hd', he', htogether'⟩ := hstands'.together hstandsk'
  have hd'' := hd'.perm hp
  have he'' := he'.perm hp
  have htogether'' : Together ds c.canonicalUrl k.canonicalUrl d' e' := by
    rcases htogether' with heq | hnot | hnot
    · exact .inl heq
    · exact .inr (.inl fun x hx => hnot x (hx.perm hp.symm))
    · exact .inr (.inr fun x hx => hnot x (hx.perm hp.symm))
  -- the two candidates of a URL differ in rank at most
  have hofficial : ∀ {a b : Candidate}, a.canonicalUrl = b.canonicalUrl →
      official classify entity a = official classify entity b := by
    intro a b hab
    unfold official classified
    rw [hab]
  have hscore : c'.score = c.score := hd''.score_eq hd
  have hscorek : k'.score = k.score := he''.score_eq he
  have hprovider : c'.provider = c.provider := hs.provider _ _ _ _ _ hd'' hd
  have hproviderk : k'.provider = k.provider := hs.provider _ _ _ _ _ he'' he
  unfold rankKey Candidate.direct at hle ⊢
  rw [hofficial hcu, hofficial hku, hscore, hscorek, hprovider, hproviderk, hcu, hku] at hle
  simp only [Prod.Lex.toLex_le_toLex] at hle ⊢
  refine hle.imp_right fun ⟨hsame, hrest⟩ => ⟨hsame, hrest.imp_right fun ⟨hdirect, hrest⟩ =>
    ⟨hdirect, hrest.imp_right fun ⟨hequal, hranks⟩ => ⟨hequal, ?_⟩⟩⟩
  have hlt : toLex (c'.rank, c.canonicalUrl) < toLex (k'.rank, k.canonicalUrl) := by
    rcases hranks with hlt | ⟨heq, hurl⟩
    · exact Prod.Lex.toLex_lt_toLex.mpr (.inl hlt)
    · exact Prod.Lex.toLex_lt_toLex.mpr (.inr ⟨heq, lt_of_le_of_ne hurl huv⟩)
  have hdirect' : c'.provider = "direct" ↔ k'.provider = "direct" := by
    rw [hprovider, hproviderk]
    by_cases hcd : c.provider = "direct"
    · by_cases hkd : k.provider = "direct"
      · exact iff_of_true hcd hkd
      · simp [hcd, hkd] at hdirect
    · by_cases hkd : k.provider = "direct"
      · simp [hcd, hkd] at hdirect
      · exact iff_of_false hcd hkd
  have hscores : c'.score = k'.score := by
    rw [hscore, hscorek]
    exact neg_inj.mp hequal
  have hlt' := hs.order _ _ _ _ _ _ _ _ _ _ hd'' he'' htogether'' hd he htogether hscores hdirect'
    hlt
  rcases Prod.Lex.toLex_lt_toLex.mp hlt' with hlt' | ⟨heq, hurl⟩
  · exact .inl hlt'
  · exact .inr ⟨heq, le_of_lt hurl⟩

variable (classify entity) in
/-- The ranked candidates of a steady selection are similar in every order. -/
theorem Steady.ranked_similar (hs : Steady ds) (hp : ds'.Perm ds) :
    List.Forall₂ Similar (ranked classify entity (candidatesOf ds'))
      (ranked classify entity (candidatesOf ds)) := by
  have hsimilar : ∀ c ∈ candidatesOf ds, ∀ c' ∈ candidatesOf ds',
      c'.canonicalUrl = c.canonicalUrl → Similar c' c := by
    intro c hc c' hc' hu
    obtain ⟨d, -, hd, -⟩ := (stands_of_mem hc).together (stands_of_mem hc)
    have hstands' : Stands (allHits ds') c.canonicalUrl c'.toDiscoveredHit :=
      hu ▸ stands_of_mem hc'
    obtain ⟨d', -, hd', -⟩ := hstands'.together hstands'
    have hprovider : c'.provider = c.provider := hs.provider _ _ _ _ _ (hd'.perm hp) hd
    obtain ⟨c'', hc'', hu'', hfacts⟩ := exists_candidate_perm hp.symm hc
    have hsame : c'' = c' :=
      List.inj_on_of_nodup_map (nodup_url_candidatesOf ds') hc'' hc' (hu''.trans hu.symm)
    rw [hsame] at hfacts
    unfold Similar Candidate.view
    rw [hu, hprovider, hfacts]
  have hranked : ∀ ds : List DiscoveryOutput,
      (ranked classify entity (candidatesOf ds)).Perm (candidatesOf ds) := fun ds => rank_perm _ _
  -- sorted by their keys, the URLs come in the same order
  let before (u v : String) : Prop := ∀ c ∈ candidatesOf ds, ∀ k ∈ candidatesOf ds,
    c.canonicalUrl = u → k.canonicalUrl = v → rankKey classify entity c ≤ rankKey classify entity k
  have hsorted' : ((ranked classify entity (candidatesOf ds')).map (·.canonicalUrl)).Pairwise
      before := by
    refine List.pairwise_map.mpr ((pairwise_rank _ _).imp_of_mem ?_)
    intro c' k' hc' hk' hle c hc k hk hcu hku
    exact hs.rankKey_le hp hc hk ((hranked ds').mem_iff.mp hc') ((hranked ds').mem_iff.mp hk')
      hcu.symm hku.symm hle
  have hsorted : ((ranked classify entity (candidatesOf ds)).map (·.canonicalUrl)).Pairwise
      before := by
    refine List.pairwise_map.mpr ((pairwise_rank _ _).imp_of_mem ?_)
    intro a b ha hb hle c hc k hk hcu hku
    rwa [List.inj_on_of_nodup_map (nodup_url_candidatesOf ds) hc ((hranked ds).mem_iff.mp ha) hcu,
      List.inj_on_of_nodup_map (nodup_url_candidatesOf ds) hk ((hranked ds).mem_iff.mp hb) hku]
  have hmem : ∀ u, u ∈ (candidatesOf ds').map (·.canonicalUrl) ↔
      u ∈ (candidatesOf ds).map (·.canonicalUrl) := by
    intro u
    simp only [List.mem_map]
    constructor
    · rintro ⟨c, hc, rfl⟩
      obtain ⟨c', hc', hu, -⟩ := exists_candidate_perm hp hc
      exact ⟨c', hc', hu⟩
    · rintro ⟨c, hc, rfl⟩
      obtain ⟨c', hc', hu, -⟩ := exists_candidate_perm hp.symm hc
      exact ⟨c', hc', hu⟩
  have hperm : ((ranked classify entity (candidatesOf ds')).map (·.canonicalUrl)).Perm
      ((ranked classify entity (candidatesOf ds)).map (·.canonicalUrl)) := by
    refine ((hranked ds').map _).trans (List.Perm.trans ?_ ((hranked ds).map _).symm)
    exact (List.perm_ext_iff_of_nodup (nodup_url_candidatesOf ds')
      (nodup_url_candidatesOf ds)).mpr hmem
  have hurls : (ranked classify entity (candidatesOf ds')).map (·.canonicalUrl)
      = (ranked classify entity (candidatesOf ds)).map (·.canonicalUrl) := by
    refine List.Perm.eq_of_pairwise (fun u v hu hv huv hvu => ?_) hsorted' hsorted hperm
    obtain ⟨k, hk, rfl⟩ := List.mem_map.mp (((hranked ds).map _).mem_iff.mp hv)
    obtain ⟨c, hc, rfl⟩ := List.mem_map.mp ((hmem u).mp (((hranked ds').map _).mem_iff.mp hu))
    exact url_eq_of_rankKey_eq (le_antisymm (huv c hc k hk rfl rfl) (hvu k hk c hc rfl rfl))
  refine forall₂_of_map_eq hurls fun c' hc' c hc hu => ?_
  exact hsimilar c ((hranked ds).mem_iff.mp hc) c' ((hranked ds').mem_iff.mp hc') hu

/-- **A steady selection does not depend on the order.** -/
theorem Steady.orderFree (hs : Steady ds) : OrderFree ds := by
  intro classify entity mode limit _ ds' hp
  have hranked := hs.ranked_similar classify entity hp
  cases mode with
  | fast => exact map_view_similar (selectFast_similar classify entity limit hranked)
  | research => exact map_view_similar (selectResearch_similar classify entity limit hranked)

/-! ### Where the order shows

FAST selects one hit if there is one official page, and else the first hits of different
publishers. -/

/-- A policy under which one page is official. -/
def oneOfficial (u : String) : Classify := fun url _ =>
  some (url, if url = u then .official else .independent)

/-- A policy under which two pages have publishers of their own, and the rest has one together. -/
def threePublishers (u v : String) : Classify := fun url _ =>
  some (if url = u then "1" else if url = v then "2" else "0", .independent)

theorem official_oneOfficial (u : String) (c : Candidate) :
    official (oneOfficial u) entity c = decide (c.canonicalUrl = u) := by
  unfold official classified oneOfficial
  by_cases h : c.canonicalUrl = u
  · simp [h]
  · simp [h]

theorem official_threePublishers (u v : String) (c : Candidate) :
    official (threePublishers u v) entity c = false := rfl

variable (entity) in
/-- **FAST selects the one official page.** -/
theorem select_oneOfficial {u : String} {h : DiscoveredHit} (hs : Stands (allHits ds) u h) :
    ∃ c ∈ candidatesOf ds, c.toDiscoveredHit = h ∧
      (select (oneOfficial u) entity .fast 1 ds).selected = [c] := by
  obtain ⟨c, hc, hhit, hu⟩ := exists_candidate hs
  refine ⟨c, hc, hhit, ?_⟩
  show selectFast (oneOfficial u) entity 1 (ranked (oneOfficial u) entity (candidatesOf ds)) = [c]
  have hranked : (ranked (oneOfficial u) entity (candidatesOf ds)).Perm (candidatesOf ds) :=
    rank_perm _ _
  have hsorted := pairwise_rank (rankKey (oneOfficial u) entity) (candidatesOf ds)
  have hnd := nodup_url_candidatesOf ds
  unfold ranked at hranked ⊢
  revert hranked hsorted
  generalize rank (rankKey (oneOfficial u) entity) (candidatesOf ds) = l
  intro hranked hsorted
  have hone : ∀ a ∈ l, official (oneOfficial u) entity a = true → a = c := by
    intro a ha hofficial
    rw [official_oneOfficial, decide_eq_true_iff] at hofficial
    exact List.inj_on_of_nodup_map hnd (hranked.mem_iff.mp ha) hc (hofficial.trans hu.symm)
  have hcofficial : official (oneOfficial u) entity c = true := by
    rw [official_oneOfficial]
    exact decide_eq_true hu
  have hcl : c ∈ l := hranked.mem_iff.mpr hc
  -- the official page is ranked first
  obtain ⟨rest, rfl⟩ : ∃ rest, l = c :: rest := by
    cases l with
    | nil => cases hcl
    | cons a rest =>
        rcases List.mem_cons.mp hcl with rfl | hin
        · exact ⟨rest, rfl⟩
        · have hle := (List.pairwise_cons.mp hsorted).1 c hin
          refine ⟨rest, ?_⟩
          rw [hone a List.mem_cons_self ?_]
          by_contra hnot
          unfold rankKey at hle
          rw [hcofficial, Bool.eq_false_iff.mpr hnot] at hle
          rcases Prod.Lex.toLex_le_toLex.mp hle with hlt | ⟨heq, -⟩
          · exact absurd hlt (Nat.not_lt_zero 1)
          · exact absurd heq Nat.one_ne_zero
  have hpages : ¬2 ≤ (((c :: rest).filter (trustedDirect (oneOfficial u) entity)).map
      (·.canonicalUrl)).toFinset.card := by
    have hsub : (((c :: rest).filter (trustedDirect (oneOfficial u) entity)).map
        (·.canonicalUrl)).toFinset ⊆ {u} := by
      intro x hx
      obtain ⟨a, ha, rfl⟩ := List.mem_map.mp (List.mem_toFinset.mp hx)
      obtain ⟨ha, htrusted⟩ := List.mem_filter.mp ha
      have hofficial := (Bool.and_eq_true _ _ ▸ htrusted :
        official (oneOfficial u) entity a = true ∧ a.direct = true).1
      rw [Finset.mem_singleton, hone a ha hofficial, hu]
    have hcard := Finset.card_le_card hsub
    rw [Finset.card_singleton] at hcard
    omega
  have hany : (c :: rest).any (official (oneOfficial u) entity) = true :=
    List.any_eq_true.mpr ⟨c, List.mem_cons_self, hcofficial⟩
  unfold selectFast
  dsimp only
  rw [if_neg hpages, if_pos hany, if_neg hpages]
  have hnew : ¬identity (oneOfficial u) entity c ∈ (∅ : Finset String) := Finset.notMem_empty _
  rw [spread, if_neg hnew]
  rfl

/-- Hits that stand for a URL in some order have the provider that the order selects. -/
theorem OrderFree.provider (hfree : OrderFree ds) {u : String} {d e : DiscoveryOutput}
    {h k : DiscoveredHit} (hd : Leads ds d u h) (he : Leads ds e u k) :
    h.provider = k.provider := by
  have hselected : ∀ {d : DiscoveryOutput} {h : DiscoveredHit}, Leads ds d u h →
      ∃ c : Candidate, c.provider = h.provider ∧
        (select (oneOfficial u) "" .fast 1 ds).selected.map Candidate.view = [c.view] := by
    intro d h hd
    obtain ⟨ds', hp, hs, -⟩ := Together.realized (.inl rfl) hd hd
    obtain ⟨c, -, rfl, hc⟩ := select_oneOfficial "" hs
    refine ⟨c, rfl, ?_⟩
    rw [← hfree (oneOfficial u) "" .fast 1 (Nat.le_refl 1) ds' hp, hc]
    rfl
  obtain ⟨c, hc, hview⟩ := hselected hd
  obtain ⟨c', hc', hview'⟩ := hselected he
  rw [hview] at hview'
  have hsame : c.provider = c'.provider :=
    congrArg Prod.fst (congrArg Prod.snd (List.cons.inj hview').1)
  rw [← hc, ← hc', hsame]

variable (entity) in
/-- Before a page of another publisher only one page of the rest is spread out. -/
theorem spread_threePublishers {u v : String} {c : Candidate} {before : List Candidate}
    (after : List Candidate) (hc : c.canonicalUrl = u ∨ c.canonicalUrl = v)
    (hbefore : ∀ a ∈ before, a.canonicalUrl ≠ u ∧ a.canonicalUrl ≠ v) (seen : Finset String)
    (hseen : identity (threePublishers u v) entity c ∉ seen) :
    ∃ shown rest, (spread (threePublishers u v) entity seen (before ++ c :: after)).1
        = shown ++ c :: rest ∧ (∀ a ∈ shown, a ∈ before) ∧
      shown.length ≤ if "0" ∈ seen then 0 else 1 := by
  have hother : ∀ a ∈ before, identity (threePublishers u v) entity a = "0" := by
    intro a ha
    obtain ⟨hau, hav⟩ := hbefore a ha
    unfold identity classified threePublishers
    simp [hau, hav]
  have hown : identity (threePublishers u v) entity c ≠ "0" := by
    unfold identity classified threePublishers
    rcases hc with rfl | rfl
    · simp
    · by_cases h : c.canonicalUrl = u
      · simp [h]
      · simp [h]
  induction before generalizing seen with
  | nil =>
      refine ⟨[], (spread (threePublishers u v) entity
        (insert (identity (threePublishers u v) entity c) seen) after).1, ?_,
        (fun a ha => by cases ha), Nat.zero_le _⟩
      rw [List.nil_append, spread, if_neg hseen]
      rfl
  | cons a before ih =>
      have ih := ih (fun x hx => hbefore x (List.mem_cons_of_mem _ hx))
      rw [List.cons_append, spread, hother a List.mem_cons_self]
      have hother' := fun x hx => hother x (List.mem_cons_of_mem a hx)
      by_cases hzero : "0" ∈ seen
      · obtain ⟨shown, rest, heq, hsub, hlength⟩ := ih seen hseen hother'
        rw [if_pos hzero]
        exact ⟨shown, rest, heq, fun x hx => List.mem_cons_of_mem _ (hsub x hx), hlength⟩
      · have hseen' : identity (threePublishers u v) entity c ∉ insert "0" seen := by
          rw [Finset.mem_insert, not_or]
          exact ⟨hown, hseen⟩
        obtain ⟨shown, rest, heq, -, hlength⟩ := ih (insert "0" seen) hseen' hother'
        rw [if_pos (Finset.mem_insert_self _ _), Nat.le_zero, List.length_eq_zero_iff] at hlength
        subst hlength
        rw [if_neg hzero]
        refine ⟨[a], rest, ?_, fun x hx => ?_, ?_⟩
        · dsimp only
          rw [heq]
          rfl
        · rw [List.mem_singleton.mp hx]
          exact List.mem_cons_self
        · rw [if_neg hzero]
          exact Nat.le_refl 1

/-- The first of two URLs in a list. -/
def firstOf (u v : String) (l : List Candidate) : Option Candidate :=
  l.find? fun c => decide (c.canonicalUrl = u ∨ c.canonicalUrl = v)

/-- **Of two pages with publishers of their own FAST shows the one that is ranked first.** -/
theorem firstOf_selectFast {u v : String} {c : Candidate} {l : List Candidate}
    (hc : firstOf u v l = some c) :
    firstOf u v (selectFast (threePublishers u v) entity 2 l) = some c := by
  obtain ⟨hfound, before, after, rfl, hbefore⟩ := List.find?_eq_some_iff_append.mp hc
  have hc := of_decide_eq_true hfound
  have hbefore : ∀ a ∈ before, a.canonicalUrl ≠ u ∧ a.canonicalUrl ≠ v := by
    intro a ha
    have := hbefore a ha
    rwa [Bool.not_eq_true', decide_eq_false_iff_not, not_or] at this
  obtain ⟨shown, rest, heq, hsub, hlength⟩ :=
    spread_threePublishers entity after hc hbefore ∅ (Finset.notMem_empty _)
  have hfind : ∀ more : List Candidate, firstOf u v (shown ++ c :: more) = some c := by
    intro more
    refine List.find?_eq_some_iff_append.mpr ⟨decide_eq_true hc, shown, more, rfl, fun a ha => ?_⟩
    rw [Bool.not_eq_true', decide_eq_false_iff_not, not_or]
    exact hbefore a (hsub a ha)
  have htaken : ∀ more : List Candidate, ∃ more', (shown ++ c :: more).take 2
      = shown ++ c :: more' := by
    intro more
    rw [if_neg (Finset.notMem_empty _)] at hlength
    cases shown with
    | nil => exact ⟨more.take 1, rfl⟩
    | cons a shown =>
        have hnil : shown = [] := List.length_eq_zero_iff.mp (by simpa using hlength)
        subst hnil
        exact ⟨[], rfl⟩
  have htrusted : (before ++ c :: after).filter (trustedDirect (threePublishers u v) entity)
      = [] := List.filter_eq_nil_iff.mpr fun a _ => Bool.false_ne_true
  have hany : ¬(before ++ c :: after).any (official (threePublishers u v) entity) = true := by
    rw [List.any_eq_true]
    rintro ⟨a, -, ha⟩
    cases ha
  unfold selectFast
  dsimp only
  rw [htrusted, if_neg (by simp), if_neg hany, heq, List.append_assoc, List.cons_append]
  obtain ⟨more', hmore⟩ := htaken (rest ++ (spread (threePublishers u v) entity ∅
    (before ++ c :: after)).2)
  show firstOf u v (List.take 2 _) = some c
  rw [hmore]
  exact hfind more'

theorem firstOf_comm (u v : String) (l : List Candidate) : firstOf u v l = firstOf v u l := by
  unfold firstOf
  simp only [or_comm]

/-- The URL of the first of two is read off the URLs. -/
theorem map_firstOf (u v : String) (l : List Candidate) :
    (firstOf u v l).map (·.canonicalUrl)
      = (l.map (·.canonicalUrl)).find? fun w => decide (w = u ∨ w = v) := by
  rw [List.find?_map]
  rfl

/-- Of two pages with the same score the one with the lesser rank comes first. -/
theorem firstOf_ranked (hofficial : ∀ c, official classify entity c = false) {u v : String}
    {h k : DiscoveredHit} (hs : Stands (allHits ds) u h) (hs' : Stands (allHits ds) v k)
    (huv : u ≠ v) (hscore : h.score = k.score)
    (hdirect : h.provider = "direct" ↔ k.provider = "direct")
    (hlt : toLex (h.rank, u) < toLex (k.rank, v)) :
    (firstOf u v (ranked classify entity (candidatesOf ds))).map (·.canonicalUrl) = some u := by
  obtain ⟨c, hc, rfl, rfl⟩ := exists_candidate hs
  obtain ⟨c', hc', rfl, rfl⟩ := exists_candidate hs'
  have hranked : (ranked classify entity (candidatesOf ds)).Perm (candidatesOf ds) := rank_perm _ _
  have hsorted := pairwise_rank (rankKey classify entity) (candidatesOf ds)
  have hkey : rankKey classify entity c < rankKey classify entity c' := by
    have hsame : c.direct = c'.direct := by
      unfold Candidate.direct
      by_cases hd : c.provider = "direct"
      · rw [hd, hdirect.mp hd]
      · rw [beq_false_of_ne hd, beq_false_of_ne fun h => hd (hdirect.mpr h)]
    unfold rankKey
    rw [hofficial, hofficial, hsame, hscore]
    refine Prod.Lex.toLex_lt_toLex.mpr (.inr ⟨rfl, Prod.Lex.toLex_lt_toLex.mpr (.inr ⟨rfl, ?_⟩)⟩)
    exact Prod.Lex.toLex_lt_toLex.mpr (.inr ⟨rfl, hlt⟩)
  cases hfirst : firstOf c.canonicalUrl c'.canonicalUrl
      (ranked classify entity (candidatesOf ds)) with
  | none =>
      have hnone := List.find?_eq_none.mp hfirst c (hranked.mem_iff.mpr hc)
      exact absurd (decide_eq_true (.inl rfl)) hnone
  | some a =>
      obtain ⟨hfound, before, after, hl, hbefore⟩ := List.find?_eq_some_iff_append.mp hfirst
      have ha : a ∈ candidatesOf ds := by
        rw [← hranked.mem_iff, hl]
        exact List.mem_append_right _ List.mem_cons_self
      rcases of_decide_eq_true hfound with hau | hav
      · exact congrArg some hau
      · exfalso
        obtain rfl : a = c' := List.inj_on_of_nodup_map (nodup_url_candidatesOf ds) ha hc' hav
        have hcl := hranked.mem_iff.mpr hc
        unfold ranked at hl hcl
        rw [hl] at hcl hsorted
        rcases List.mem_append.mp hcl with hin | hin
        · have hnot := hbefore c hin
          rw [decide_eq_true (.inl rfl)] at hnot
          cases hnot
        · rcases List.mem_cons.mp hin with heq | hin
          · exact huv (congrArg (fun c : Candidate => c.canonicalUrl) heq)
          · have hle := (List.pairwise_cons.mp (List.pairwise_append.mp hsorted).2.1).1 c hin
            exact absurd hkey (not_lt.mpr hle)

/-- Hits that stand together in some order are ordered as that order selects them. -/
theorem OrderFree.order (hfree : OrderFree ds) {u v : String} {d e d' e' : DiscoveryOutput}
    {h k h' k' : DiscoveredHit} (hd : Leads ds d u h) (he : Leads ds e v k)
    (ht : Together ds u v d e) (hd' : Leads ds d' u h') (he' : Leads ds e' v k')
    (ht' : Together ds u v d' e') (hscore : h.score = k.score)
    (hdirect : h.provider = "direct" ↔ k.provider = "direct")
    (hlt : toLex (h.rank, u) < toLex (k.rank, v)) :
    toLex (h'.rank, u) < toLex (k'.rank, v) := by
  by_cases huv : u = v
  · subst huv
    have hsame : d = e := by
      rcases ht with heq | hnot | hnot
      · exact heq
      · exact absurd he (hnot k)
      · exact absurd hd (hnot h)
    subst hsame
    rw [hd.stands.unique he.stands] at hlt
    exact absurd hlt (lt_irrefl _)
  by_contra hnot
  have hgt : toLex (k'.rank, v) < toLex (h'.rank, u) := by
    refine lt_of_le_of_ne (not_lt.mp hnot) fun heq => huv ?_
    exact (congrArg Prod.snd (congrArg ofLex heq)).symm
  -- the selection of FAST, where nothing is official
  have hshown : ∀ {ds' : List DiscoveryOutput} {w : String}, ds'.Perm ds →
      (firstOf u v (ranked (threePublishers u v) "" (candidatesOf ds'))).map (·.canonicalUrl)
        = some w →
      (((select (threePublishers u v) "" .fast 2 ds).selected.map Candidate.view).map
        Prod.fst).find? (fun w => decide (w = u ∨ w = v)) = some w := by
    intro ds' w hp hw
    rw [← hfree (threePublishers u v) "" .fast 2 (by decide) ds' hp, List.map_map]
    show ((select (threePublishers u v) "" .fast 2 ds').selected.map
      (·.canonicalUrl)).find? _ = some w
    rw [← map_firstOf]
    obtain ⟨c, hc, rfl⟩ := Option.map_eq_some_iff.mp hw
    exact congrArg (Option.map _) (firstOf_selectFast hc)
  obtain ⟨ds₁, hp₁, hs₁, hs₁'⟩ := ht.realized hd he
  obtain ⟨ds₂, hp₂, hs₂, hs₂'⟩ := ht'.realized hd' he'
  have hofficial : ∀ c, official (threePublishers u v) "" c = false :=
    official_threePublishers u v
  have hfirst := hshown hp₁ (firstOf_ranked hofficial hs₁ hs₁' huv hscore hdirect hlt)
  have hscore' : k'.score = h'.score := by
    rw [he'.score_eq he, hd'.score_eq hd, hscore]
  have hdirect' : k'.provider = "direct" ↔ h'.provider = "direct" := by
    rw [hfree.provider he' he, hfree.provider hd' hd]
    exact hdirect.symm
  have hsecond := hshown hp₂ (by
    rw [firstOf_comm]
    exact firstOf_ranked hofficial hs₂' hs₂ (Ne.symm huv) hscore' hdirect' hgt)
  rw [hfirst] at hsecond
  exact huv (Option.some.inj hsecond)

variable (ds) in
/--
**When the order of the discovery outputs does not matter.** The selection is the same in every
order, under every policy, in both modes and with every limit, exactly if it is steady.
-/
theorem orderFree_iff_steady : OrderFree ds ↔ Steady ds := by
  refine ⟨fun hfree => ⟨?_, ?_⟩, Steady.orderFree⟩
  · exact fun u d e h k hd he => hfree.provider hd he
  · exact fun u v d e h k d' e' h' k' hd he ht hd' he' ht' hscore hdirect hlt =>
      hfree.order hd he ht hd' he' ht' hscore hdirect hlt

end Candidates

/-- A hit with the best score a provider gives. -/
def sampleHit (provider : String) : DiscoveredHit where
  provider := provider
  queryKey := "q1"
  rank := 1
  url := "https://www.python.org/"
  canonicalUrl := "https://www.python.org/"
  title := ""
  snippet := ""
  score := 1
  id := "hit"
  queryId := "query"
  factId := "fact"

/-- The output of a step that asked one provider. -/
def sampleOutput (provider : String) : DiscoveryOutput :=
  ⟨[⟨provider, "q1", false, [sampleHit provider]⟩]⟩

/-- Two providers find the same page with the same score: which of them is selected is a matter of
the order. -/
theorem provider_depends_on_order :
    ¬OrderFree [sampleOutput "direct", sampleOutput "bing_rss"] := by
  intro hfree
  have hsame := hfree sampleClassify "python" .fast 1 (Nat.le_refl 1)
    [sampleOutput "bing_rss", sampleOutput "direct"] (List.Perm.swap _ _ _)
  revert hsame
  decide +kernel

end Sana.Search
