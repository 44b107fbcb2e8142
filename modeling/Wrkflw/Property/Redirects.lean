import Wrkflw.Action.Redirect

/-!
# Which redirects are followed

The policy compares each target with the first request only. For the host that is enough: all hops have the host of the
first request. For the scheme it is not: a chain that began in plaintext may be upgraded and then leave https again.

* `followRedirects_spec` : what the policy looks at, over a whole chain;
* `redirects_safe_iff` : every chain followed from a request is safe exactly where the request is an https one.
-/

namespace Wrkflw

/-- No hop goes from an https request to another scheme. -/
def KeepsHttps (chain : List HttpURL) : Prop := chain.IsChain (fun a b => a.scheme = "https" → b.scheme = "https")

/-- The chain stays on its host, does not leave https and is short. -/
structure SafeChain (first : HttpURL) (targets : List HttpURL) : Prop where
  sameHost : ∀ u ∈ targets, u.hostname = first.hostname
  keepsHttps : KeepsHttps (first :: targets)
  short : targets.length ≤ 10

/-- One hop the policy lets through. -/
theorem refuseUnsafeRedirect_ok {req : HttpURL} {via : List HttpURL} {hvia : via ≠ []}
    (h : refuseUnsafeRedirect req via hvia = .ok ()) :
    via.length < maxRedirects ∧ ((via.head hvia).scheme = "https" → req.scheme = "https") ∧
      req.hostname = (via.head hvia).hostname := by
  unfold refuseUnsafeRedirect at h
  split_ifs at h with hlen hscheme hhost
  refine ⟨Nat.lt_of_not_le hlen, fun hs => ?_, not_not.mp hhost⟩
  by_contra hreq
  exact hscheme ⟨hs, hreq⟩

/-- Along a chain that was followed every target was compared with the first request. -/
theorem followRedirects_spec : ∀ (targets : List HttpURL) {via chain : List HttpURL} {hvia : via ≠ []},
    via.length ≤ maxRedirects → followRedirects via hvia targets = .ok chain →
      via.length + targets.length ≤ maxRedirects ∧
      ∀ u ∈ targets, ((via.head hvia).scheme = "https" → u.scheme = "https") ∧ u.hostname = (via.head hvia).hostname := by
  intro targets
  induction targets with
  | nil =>
    intro via chain hvia hlen _
    exact ⟨by simpa using hlen, by simp⟩
  | cons req targets ih =>
    intro via chain hvia hlen h
    unfold followRedirects at h
    split at h
    · cases h
    · next hok =>
      obtain ⟨hlt, hscheme, hhost⟩ := refuseUnsafeRedirect_ok hok
      obtain ⟨hsum, hrest⟩ := ih (by rw [List.length_append, List.length_singleton]; omega) h
      rw [List.length_append, List.length_singleton] at hsum
      refine ⟨by rw [List.length_cons]; omega, fun u hu => ?_⟩
      rcases List.mem_cons.mp hu with rfl | hmem
      · exact ⟨hscheme, hhost⟩
      · have := hrest u hmem
        rwa [List.head_append_of_ne_nil hvia] at this

/-- Where all requests are https ones, none leaves https. -/
theorem KeepsHttps.of_all : ∀ {chain : List HttpURL}, (∀ u ∈ chain, u.scheme = "https") → KeepsHttps chain := by
  intro chain hall
  refine List.isChain_iff_getElem.mpr (fun i hi _ => ?_)
  exact hall _ (List.getElem_mem _)

/-- The host and the length of every chain, and the scheme of those that begin with https; other requests may be led up to
https and down again. -/
theorem redirects_safe_iff (first : HttpURL) :
    (∀ targets chain, followRedirects [first] (List.cons_ne_nil first []) targets = .ok chain →
        (∀ u ∈ targets, u.hostname = first.hostname) ∧ targets.length ≤ 10) ∧
      ((∀ targets chain, followRedirects [first] (List.cons_ne_nil first []) targets = .ok chain →
          SafeChain first targets) ↔ first.scheme = "https") := by
  have hone : [first].length ≤ maxRedirects := by simp [maxRedirects]
  have hbounds : ∀ targets chain, followRedirects [first] (List.cons_ne_nil first []) targets = .ok chain →
      (∀ u ∈ targets, u.hostname = first.hostname) ∧ targets.length ≤ 10 := by
    intro targets chain h
    obtain ⟨hlen, hall⟩ := followRedirects_spec targets hone h
    refine ⟨fun u hu => (hall u hu).2, ?_⟩
    have : maxRedirects = 10 := rfl
    omega
  refine ⟨hbounds, fun hsafe => ?_, fun hs targets chain h => ?_⟩
  · by_contra hs
    -- up to https on the same host, and down again
    have hfollow : followRedirects [first] (List.cons_ne_nil first []) [{ first with scheme := "https" }, first] =
        .ok [first, { first with scheme := "https" }, first] := by
      have hhost : HttpURL.hostname { first with scheme := "https" } = first.hostname := rfl
      simp [followRedirects, refuseUnsafeRedirect, maxRedirects, hs, hhost]
    have hkeeps := (hsafe _ _ hfollow).keepsHttps
    unfold KeepsHttps at hkeeps
    rw [List.isChain_cons_cons, List.isChain_cons_cons] at hkeeps
    exact hs (hkeeps.2.1 rfl)
  · obtain ⟨hsame, hshort⟩ := hbounds targets chain h
    obtain ⟨_, hall⟩ := followRedirects_spec targets hone h
    refine ⟨hsame, KeepsHttps.of_all (fun u hu => ?_), hshort⟩
    rcases List.mem_cons.mp hu with rfl | hmem
    · exact hs
    · exact (hall u hmem).1 hs

/-- `http://a/` is led to `https://a/` and back, and all of it is followed. -/
theorem upgraded_then_downgraded :
    followRedirects [⟨"http", "a"⟩] (List.cons_ne_nil _ _) [⟨"https", "a"⟩, ⟨"http", "a"⟩] =
        .ok [⟨"http", "a"⟩, ⟨"https", "a"⟩, ⟨"http", "a"⟩] ∧
      ¬ KeepsHttps [⟨"http", "a"⟩, ⟨"https", "a"⟩, ⟨"http", "a"⟩] := by
  refine ⟨by decide, fun h => ?_⟩
  unfold KeepsHttps at h
  rw [List.isChain_cons_cons, List.isChain_cons_cons] at h
  exact absurd (h.2.1 rfl) (by decide)

end Wrkflw
