import LinkageCheck.Proofs.Diagram.Checked
import Mathlib.Data.List.Nodup

/-! The order in which links are added to a diagram does not show, as long as no two of them have
the same two ends: they are placed in an order of their own, and share no more than ends of links
and verticals when they are drawn. -/

namespace LinkageCheck.Diagram

variable {links links' : List Link}

def DistinctEnds (links : List Link) : Prop :=
  (links.map fun link => (link.left, link.right)).Nodup

instance : Decidable (DistinctEnds links) := inferInstanceAs (Decidable (List.Nodup _))

theorem ends_eq_of_comesBefore {a b : Link} (ha : a.left < a.right) (hb : b.left < b.right)
    (hab : comesBefore a b = true) (hba : comesBefore b a = true) :
    (a.left, a.right) = (b.left, b.right) := by
  simp only [comesBefore, Bool.or_eq_true, Bool.and_eq_true, decide_eq_true_eq, beq_iff_eq] at *
  rw [Prod.mk.injEq]
  omega

theorem placementOrder_perm (links : List Link) : (placementOrder links).Perm links :=
  List.mergeSort_perm _ _

theorem pairwise_placementOrder (links : List Link) :
    (placementOrder links).Pairwise fun a b => comesBefore a b = true :=
  List.pairwise_mergeSort comesBefore_trans comesBefore_total links

theorem placementOrder_eq_of_perm (h : DistinctEnds links)
    (hvalid : ∀ link ∈ links, link.left < link.right) (hperm : links'.Perm links) :
    placementOrder links' = placementOrder links := by
  have hsorted := (placementOrder_perm links').trans (hperm.trans (placementOrder_perm links).symm)
  refine hsorted.eq_of_pairwise (fun a b ha hb hab hba => ?_) (pairwise_placementOrder _)
    (pairwise_placementOrder _)
  -- The order does not look at labels: that tied links are the same follows from their ends alone.
  have ha := hperm.mem_iff.mp ((placementOrder_perm links').mem_iff.mp ha)
  have hb := (placementOrder_perm links).mem_iff.mp hb
  exact List.inj_on_of_nodup_map h ha hb
    (ends_eq_of_comesBefore (hvalid a ha) (hvalid b hb) hab hba)

section Reordered

variable {d d' : Diagram} (hwords : d'.words = d.words) (hperm : d'.links.Perm d.links)
  (hends : DistinctEnds d.links)

include hwords hperm hends

theorem layoutBy_eq_of_perm (measure : String → Nat) :
    d'.layoutBy measure = d.layoutBy measure := by
  have horder : placementOrder d'.links = placementOrder d.links :=
    placementOrder_eq_of_perm hends (fun link hlink => (d.valid link hlink).1) hperm
  simp only [layoutBy, hwords, horder]

theorem textLines_eq_of_perm : d'.textLines = d.textLines := by
  have hlayout : d'.layout = d.layout := layoutBy_eq_of_perm hwords hperm hends Text.displayWidth
  simp only [textLines, linesBy, hlayout, hperm.isEmpty_eq, hwords]

end Reordered

/-- Valid links with distinct ends make the same diagram in whatever order they are added. Layout
and text agree, and so do the lines if each diagram draws its links one by one in any order, as in
the one in which they were added. -/
theorem text_of_perm {words : List String} {links links' : List Link}
    (hvalid : ∀ link ∈ links, link.left < link.right ∧ link.right < words.length)
    (hperm : links'.Perm links) (hends : DistinctEnds links) :
    ∃ d d' : Diagram, (ofWords words).addLinks links = .ok d
      ∧ (ofWords words).addLinks links' = .ok d'
      ∧ (∀ measure, d'.layoutBy measure = d.layoutBy measure)
      ∧ d'.text = d.text ∧ d'.render = d.render
      ∧ ∀ order order', order.Perm d.layout.placed → order'.Perm d'.layout.placed →
          lines? d { d.layout with placed := order } = some d.textLines
            ∧ lines? d' { d'.layout with placed := order' } = some d.textLines := by
  have hvalid' : ∀ link ∈ links', link.left < link.right ∧ link.right < words.length :=
    fun link hlink => hvalid link (hperm.mem_iff.mp hlink)
  let d : Diagram := ⟨words, links, hvalid⟩
  let d' : Diagram := ⟨words, links', hvalid'⟩
  have hlines : d'.textLines = d.textLines := textLines_eq_of_perm rfl hperm hends
  have htext : d'.text = d.text := by
    rw [text, text, hlines]
  have hdrawn (d : Diagram) {order : List Placed} (horder : order.Perm d.layout.placed) :
      lines? d { d.layout with placed := order } = some d.textLines :=
    (sound_layoutBy Text.displayWidth d).lines order horder
  refine ⟨d, d', addLinks_eq_ok_iff.mpr ⟨rfl, rfl⟩, addLinks_eq_ok_iff.mpr ⟨rfl, rfl⟩,
    layoutBy_eq_of_perm rfl hperm hends, htext, ?_, fun order order' horder horder' => ?_⟩
  · rw [render, render, htext]
  · exact ⟨hdrawn d horder, hlines ▸ hdrawn d' horder'⟩

theorem text_of_perm_thisIsATest :
    let words := thisIsATest.words
    let links := thisIsATest.links
    (∀ link ∈ links, link.left < link.right ∧ link.right < words.length)
      ∧ links.reverse.Perm links ∧ DistinctEnds links
      ∧ ∃ d d' : Diagram, (ofWords words).addLinks links = .ok d
        ∧ (ofWords words).addLinks links.reverse = .ok d'
        ∧ d'.text = d.text ∧ d'.render = d.render := by
  have hends : DistinctEnds thisIsATest.links := by decide
  obtain ⟨d, d', hd, hd', -, htext, hrender, -⟩ :=
    text_of_perm thisIsATest.valid (List.reverse_perm _) hends
  exact ⟨thisIsATest.valid, List.reverse_perm _, hends, d, d', hd, hd', htext, hrender⟩

end LinkageCheck.Diagram
