/-
  File:      Meta/AdsetLinks.lean
  Subject:   ADSETS AND THEIR EXTERNAL IDS: what the two upserts keep of the adset table.

  An ad metric refers to its adset twice, by the external id of the report (part of its key) and
  by the id of the adset row. `Refers` is that pair; it never changes once it is there, and it is
  one to one, so that grouping ad metrics by either is the same.

  * `AdsetsInv.upsertAdsetFromAdDaily`, `AdsetsInv.upsertAdset` -- the upserts;
  * `matchAdRow_spec` -- the whole treatment of a row before its metric is imported.
-/
import AdsManagement.Meta.MetricStore

namespace AdsManagement.Meta

open Common Lib Coupang List

structure AdsetsInv (t : AdsetTable) : Prop where
  nodup : (t.rows.map (·.id)).Nodup
  fresh : ∀ a ∈ t.rows, a.id < t.nextId
  external : ∀ a ∈ t.rows, ∀ b ∈ t.rows, ∀ e, a.externalAdsetId = some e →
    b.externalAdsetId = some e → a = b

/-- The adset `id` carries the external id `e`. -/
def Refers (t : AdsetTable) (id : Nat) (e : String) : Prop :=
  ∃ a ∈ t.rows, a.id = id ∧ a.externalAdsetId = some e

/-- `t'` still knows what `t` knew. -/
def Keeps (t t' : AdsetTable) : Prop := ∀ id e, Refers t id e → Refers t' id e

theorem Keeps.refl (t : AdsetTable) : Keeps t t := fun _ _ h => h

theorem Keeps.trans {t t' t'' : AdsetTable} (h : Keeps t t') (h' : Keeps t' t'') : Keeps t t'' :=
  fun id e hr => h' id e (h id e hr)

variable {t : AdsetTable}

theorem AdsetsInv.eq_of_id (h : AdsetsInv t) {a b : MetaAdset} (ha : a ∈ t.rows) (hb : b ∈ t.rows)
    (e : a.id = b.id) : a = b := inj_on_of_nodup_map h.nodup ha hb e

theorem AdsetsInv.refers_id (h : AdsetsInv t) {id id' : Nat} {e : String} (h1 : Refers t id e)
    (h2 : Refers t id' e) : id = id' := by
  obtain ⟨a, ha, rfl, ea⟩ := h1
  obtain ⟨b, hb, rfl, eb⟩ := h2
  rw [h.external a ha b hb e ea eb]

theorem mem_update {id : Nat} {change : MetaAdset → MetaAdset} {b : MetaAdset} :
    b ∈ (t.update id change).rows ↔ ∃ a ∈ t.rows, b = if a.id = id then change a else a := by
  unfold AdsetTable.update
  rw [mem_map]
  exact exists_congr fun a => and_congr_right fun _ => eq_comm

section

variable (h : AdsetsInv t)
include h

/-- An update may give an adset an external id that no adset carries. -/
theorem AdsetsInv.update (id : Nat) (change : MetaAdset → MetaAdset) (hid : ∀ a, (change a).id = a.id)
    (hext : ∀ a ∈ t.rows, a.id = id → (change a).externalAdsetId = a.externalAdsetId ∨
      (a.externalAdsetId = none ∧ ∀ e, (change a).externalAdsetId = some e →
        ∀ b ∈ t.rows, b.externalAdsetId ≠ some e)) :
    AdsetsInv (t.update id change) ∧ Keeps t (t.update id change) := by
  have hids : ∀ a : MetaAdset, (if a.id = id then change a else a).id = a.id := by
    intro a
    split
    · exact hid a
    · rfl
  refine ⟨⟨?_, ?_, ?_⟩, ?_⟩
  · have e : (t.update id change).rows.map (·.id) = t.rows.map (·.id) := by
      unfold AdsetTable.update
      rw [map_map]
      exact map_congr_left fun a _ => hids a
    rw [e]
    exact h.nodup
  · intro b hb
    obtain ⟨a, ha, rfl⟩ := mem_update.mp hb
    rw [hids]
    exact h.fresh a ha
  · intro b hb c hc e eb ec
    obtain ⟨a, ha, rfl⟩ := mem_update.mp hb
    obtain ⟨d, hd, rfl⟩ := mem_update.mp hc
    have key : ∀ x ∈ t.rows, ∀ y ∈ t.rows,
        (if x.id = id then change x else x).externalAdsetId = some e →
        (if y.id = id then change y else y).externalAdsetId = some e → x.id = id → x = y := by
      intro x hx y hy ex ey hxid
      by_cases hyid : y.id = id
      · exact h.eq_of_id hx hy (hxid.trans hyid.symm)
      · rw [if_pos hxid] at ex
        rw [if_neg hyid] at ey
        rcases hext x hx hxid with hkeep | ⟨-, hnew⟩
        · exact h.external x hx y hy e (hkeep ▸ ex) ey
        · exact absurd ey (hnew e ex y hy)
    by_cases had : a.id = id
    · rw [key a ha d hd eb ec had]
    · by_cases hdd : d.id = id
      · rw [key d hd a ha ec eb hdd]
      · rw [if_neg had] at eb
        rw [if_neg hdd] at ec
        rw [h.external a ha d hd e eb ec]
  · rintro i e ⟨a, ha, rfl, ea⟩
    refine ⟨if a.id = id then change a else a, mem_update.mpr ⟨a, ha, rfl⟩, hids a, ?_⟩
    split
    · rename_i haid
      rcases hext a ha haid with hkeep | ⟨hnone, -⟩
      · rw [hkeep, ea]
      · rw [hnone] at ea; cases ea
    · exact ea

theorem AdsetsInv.create (make : Nat → MetaAdset) (hid : ∀ n, (make n).id = n)
    (hext : ∀ e, (make t.nextId).externalAdsetId = some e → ∀ b ∈ t.rows, b.externalAdsetId ≠ some e) :
    AdsetsInv (t.create make) ∧ Keeps t (t.create make) := by
  unfold AdsetTable.create
  refine ⟨⟨?_, ?_, ?_⟩, ?_⟩
  · refine nodup_map_concat h.nodup fun a ha => ?_
    rw [hid]
    exact Nat.ne_of_lt (h.fresh a ha)
  · intro a ha
    rcases mem_append.mp ha with ha | ha
    · exact Nat.lt_succ_of_lt (h.fresh a ha)
    · rw [mem_singleton.mp ha, hid]
      exact Nat.lt_succ_self _
  · intro a ha b hb e ea eb
    rcases mem_append.mp ha with ha | ha <;> rcases mem_append.mp hb with hb | hb
    · exact h.external a ha b hb e ea eb
    · rw [mem_singleton.mp hb] at eb
      exact absurd ea (hext e eb a ha)
    · rw [mem_singleton.mp ha] at ea
      exact absurd eb (hext e ea b hb)
    · rw [mem_singleton.mp ha, mem_singleton.mp hb]
  · rintro i e ⟨a, ha, hi, ea⟩
    exact ⟨a, mem_append_left _ ha, hi, ea⟩

theorem AdsetsInv.upsertAdsetFromAdDaily (toLowerCase : String → String)
    (order : QueryOrder) (now : Nat) (row : ParsedMetaAdDailyRow) :
    AdsetsInv (upsertAdsetFromAdDaily toLowerCase order now row t).1 ∧
      Keeps t (upsertAdsetFromAdDaily toLowerCase order now row t).1 ∧
      Refers (upsertAdsetFromAdDaily toLowerCase order now row t).1
        (upsertAdsetFromAdDaily toLowerCase order now row t).2.id row.metaAdsetExternalId := by
  unfold Meta.upsertAdsetFromAdDaily
  dsimp only
  split
  · rename_i existing e
    have hm := mem_of_find?_eq_some e
    have hx : existing.externalAdsetId = some row.metaAdsetExternalId := by
      simpa using find?_some e
    obtain ⟨h1, h2⟩ := h.update existing.id
      (fun adset => { seenAgain row.adsetName row.metricDate adset with
        adsetNameKey := AdsetNameNormalizer.toKey toLowerCase row.adsetName })
      (fun a => rfl) (fun a _ _ => .inl rfl)
    exact ⟨h1, h2, h2 _ _ ⟨existing, hm, rfl, hx⟩⟩
  · rename_i hnone
    have hfree : ∀ b ∈ t.rows, b.externalAdsetId ≠ some row.metaAdsetExternalId := by
      intro b hb
      simpa using find?_eq_none.mp hnone b hb
    split
    · rename_i legacy e
      have hm := (order.adsets_perm _).subset (mem_of_mem_head? (Option.mem_def.mpr e))
      obtain ⟨hm, hl⟩ := mem_filter.mp hm
      have hl' : legacy.externalAdsetId = none := (of_decide_eq_true hl).1
      obtain ⟨h1, h2⟩ := h.update legacy.id
        (fun adset => { seenAgain row.adsetName row.metricDate adset with
          adsetNameKey := AdsetNameNormalizer.toKey toLowerCase row.adsetName
          externalAdsetId := some row.metaAdsetExternalId })
        (fun a => rfl) (fun a ha hid => .inr ⟨by rw [h.eq_of_id ha hm hid]; exact hl',
          fun e' he b hb => by cases he; exact hfree b hb⟩)
      exact ⟨h1, h2, _, mem_update.mpr ⟨legacy, hm, (if_pos rfl).symm⟩, rfl, rfl⟩
    · obtain ⟨h1, h2⟩ := h.create (newAdset (some row.metaAdsetExternalId) row.adsetName
          (AdsetNameNormalizer.toKey toLowerCase row.adsetName) row.metricDate now)
          (fun n => rfl) (fun e he b hb => by cases he; exact hfree b hb)
      exact ⟨h1, h2, _, mem_append_right _ (mem_singleton.mpr rfl), rfl, rfl⟩

theorem AdsetsInv.upsertAdset (order : QueryOrder) (now : Nat) (row : ParsedMetaAdsetRow) :
    AdsetsInv (upsertAdset order now row t).1 ∧ Keeps t (upsertAdset order now row t).1 := by
  unfold Meta.upsertAdset
  dsimp only
  split
  · next existing e => exact h.update _ _ (fun a => rfl) (fun a _ _ => .inl rfl)
  · exact h.create _ (fun n => rfl) (fun e he => by cases he)

theorem AdsetsInv.matched (id : Nat) (productId : Option String) (stage : AdStage)
    (firstSeenOn : Option Int) (seenOn : Int) :
    AdsetsInv (t.update id (matchedAdset productId stage firstSeenOn seenOn)) ∧
      Keeps t (t.update id (matchedAdset productId stage firstSeenOn seenOn)) :=
  h.update _ _ (fun _ => rfl) (fun _ _ _ => .inl rfl)

/-- **The adset of a row is the one that carries its external id.** -/
theorem matchAdRow_spec (toLowerCase : String → String) (env : ImportEnv) (row : ParsedMetaAdDailyRow) :
    AdsetsInv (matchAdRow toLowerCase env row t).adsets ∧
      Keeps t (matchAdRow toLowerCase env row t).adsets ∧
      Refers (matchAdRow toLowerCase env row t).adsets (matchAdRow toLowerCase env row t).metaAdsetId
        row.metaAdsetExternalId := by
  obtain ⟨h1, h2, h3⟩ := h.upsertAdsetFromAdDaily toLowerCase env.order env.now row
  obtain ⟨h4, h5⟩ := h1.matched _ _ _ _ _
  exact ⟨h4, h2.trans h5, h5 _ _ h3⟩

end

end AdsManagement.Meta
