import NativeMessaging.Host.Turn

/-!
# Host — running a turn

What a turn *ensures* on a scene is a relation between its result, a panic included, and the scene
it leaves (`Ensures`).  It is shown part by part: what is behind a panic is skipped
(`Ensures.bind`), and looking at the world changes nothing (`Ensures.world`).  A turn *yields* what is
so where it returns and does not panic (`Yields`).  It *keeps* what holds of the scene it leaves
whenever it held of the one before (`Keeps`).
-/

namespace NativeMessaging.Host.Turn

variable {κ ω α β : Type} {scene : Scene κ ω}

theorem on_bind (turn : Turn κ ω α) (next : α → Turn κ ω β) (scene : Scene κ ω) :
    (turn >>= next).on scene =
      match turn.on scene with
      | (.ok a, scene)    => (next a).on scene
      | (.error e, scene) => (.error e, scene) := by
  rw [on, ExceptT.run_bind, StateT.run_bind, ← on]
  rcases turn.on scene with ⟨_ | _, _⟩ <;> rfl

theorem on_world (scene : Scene κ ω) :
    (Turn.world : Turn κ ω ω).on scene = (.ok scene.world, scene) := rfl

/-- The result of the turn on the scene, and the scene it leaves, are so. -/
def Ensures (turn : Turn κ ω α) (scene : Scene κ ω)
    (post : Except Panic α → Scene κ ω → Prop) : Prop :=
  post (turn.on scene).1 (turn.on scene).2

theorem Ensures.mono {turn : Turn κ ω α} {post post' : Except Panic α → Scene κ ω → Prop}
    (h : turn.Ensures scene post) (himp : ∀ r s, post r s → post' r s) :
    turn.Ensures scene post' :=
  himp _ _ h

theorem Ensures.bind {turn : Turn κ ω α} {next : α → Turn κ ω β}
    {mid : Except Panic α → Scene κ ω → Prop} {post : Except Panic β → Scene κ ω → Prop}
    (h : turn.Ensures scene mid) (hok : ∀ a s, mid (.ok a) s → (next a).Ensures s post)
    (herror : ∀ e s, mid (.error e) s → post (.error e) s) :
    (turn >>= next).Ensures scene post := by
  rw [Ensures] at h
  rw [Ensures, on_bind]
  rcases hrun : turn.on scene with ⟨e | a, s⟩
  · rw [hrun] at h
    exact herror e s h
  · rw [hrun] at h
    exact hok a s h

/-- Looking at the world changes nothing. -/
theorem Ensures.world {next : ω → Turn κ ω β} {post : Except Panic β → Scene κ ω → Prop}
    (h : (next scene.world).Ensures scene post) :
    (Turn.world >>= next).Ensures scene post := by
  rw [Ensures, on_bind]
  exact h

/-- The turn returns, and its result and the scene it leaves are so. -/
def Yields (turn : Turn κ ω α) (scene : Scene κ ω) (post : α → Scene κ ω → Prop) : Prop :=
  ∃ a after, turn.on scene = (.ok a, after) ∧ post a after

theorem yields_pure {post : α → Scene κ ω → Prop} {a : α} (h : post a scene) :
    (pure a : Turn κ ω α).Yields scene post := ⟨a, scene, rfl, h⟩

theorem Yields.mono {turn : Turn κ ω α} {post post' : α → Scene κ ω → Prop}
    (h : turn.Yields scene post) (himp : ∀ a s, post a s → post' a s) :
    turn.Yields scene post' := by
  obtain ⟨a, after, hrun, hpost⟩ := h
  exact ⟨a, after, hrun, himp a after hpost⟩

theorem Yields.bind {turn : Turn κ ω α} {next : α → Turn κ ω β} {mid : α → Scene κ ω → Prop}
    {post : β → Scene κ ω → Prop} (h : turn.Yields scene mid)
    (hnext : ∀ a s, mid a s → (next a).Yields s post) : (turn >>= next).Yields scene post := by
  obtain ⟨a, after, hrun, hmid⟩ := h
  rw [Yields, on_bind, hrun]
  exact hnext a after hmid

theorem Yields.world {next : ω → Turn κ ω β} {post : β → Scene κ ω → Prop}
    (h : (next scene.world).Yields scene post) : (Turn.world >>= next).Yields scene post := by
  rw [Yields, on_bind]
  exact h

/-- Where the scene is so, the turn leaves it so, whether it returns or panics. -/
def Keeps (holds : Scene κ ω → Prop) (turn : Turn κ ω α) : Prop :=
  ∀ scene, holds scene → holds (turn.on scene).2

theorem Keeps.bind {holds : Scene κ ω → Prop} {turn : Turn κ ω α} {next : α → Turn κ ω β}
    (h : Keeps holds turn) (hnext : ∀ a, Keeps holds (next a)) : Keeps holds (turn >>= next) := by
  intro scene hscene
  have hturn := h scene hscene
  rw [on_bind]
  rcases hrun : turn.on scene with ⟨e | a, s⟩
  · rwa [hrun] at hturn
  · rw [hrun] at hturn
    exact hnext a s hturn

end NativeMessaging.Host.Turn
