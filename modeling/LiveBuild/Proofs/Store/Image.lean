/-
# An artifact and its image

`Store.Shows s r bytes` says that an artifact has certain bytes, and that whatever was made
of it is an image of all of them.  As long as nothing is written, no operation ends that:
not finalizing (`Shows.finalizeAll`), and not materializing this artifact or any other one
as an image (`Shows.materialize`).
-/

import LiveBuild.Proofs.Store.Materialization
import Mathlib.Tactic.Set

namespace LiveBuild
namespace Store

/-- An artifact has certain bytes, and what was made of it is an image of them. -/
structure Shows (s : Store) (r : Ref Artifact) (bytes : Bytes) : Prop where
  content : (s.artifacts.get r).bytes = bytes
  image : ∀ h, (s.artifacts.get r).loaded = some h →
    s.loaded.Live h ∧ (s.loaded.get h).image = bytes

namespace Shows

variable {s : Store} {r : Ref Artifact} {bytes : Bytes}

/-- An image stays an image when artifacts are finished. -/
theorem finalizeAll (h : s.Shows r bytes) (rs : List (Ref Artifact)) :
    (s.finalizeAll rs).Shows r bytes := by
  induction rs generalizing s with
  | nil => exact h
  | cons r' rs ih =>
    have hnext : (s.finalize r').Shows r bytes :=
      ⟨by rw [bytes_finalize, h.content], fun a ha => h.image a (by rwa [loaded_finalize] at ha)⟩
    exact ih hnext

/-- An image stays an image when something is made an image, be it of the same artifact. -/
theorem materialize (h : s.Shows r bytes) (id : Nat) (r' : Ref Artifact) :
    ((Store.materialize (.image id) r').attempt s).2.Shows r bytes := by
  rcases materialize_cases (.image id) r' s with ⟨a, -, hx⟩ | ⟨e, -, he, -⟩ | ⟨l, -, hl, hx⟩
  · rw [hx]
    exact h
  · cases he
  · rw [hx]
    obtain rfl := Except.ok.inj hl
    set image := Materializer.imageOf (s.callFor r')
    set t := s.made (.image id) r' image
    have hnew : t.loaded.get (s.loaded.alloc image).1 = image := Arena.get_alloc_self _ _
    by_cases he : r' = r
    · subst he
      have hget : t.artifacts.get r' =
          { s.artifacts.get r' with loaded := some (s.loaded.alloc image).1 } :=
        Arena.get_modify_self _ _ _
      refine ⟨by rw [hget, h.content], fun a ha => ?_⟩
      rw [hget] at ha
      obtain rfl := Option.some.inj ha
      refine ⟨Arena.live_alloc_self _ _, ?_⟩
      rw [hnew]
      exact h.content
    · have hget : t.artifacts.get r = s.artifacts.get r := Arena.get_modify_of_ne _ _ he
      refine ⟨by rw [hget, h.content], fun a ha => ?_⟩
      rw [hget] at ha
      obtain ⟨hlive, himage⟩ := h.image a ha
      have hold : t.loaded.get a = s.loaded.get a := Arena.get_alloc_of_live _ hlive
      exact ⟨Arena.live_alloc_of_live _ hlive, by rw [hold, himage]⟩

end Shows
end Store
end LiveBuild
