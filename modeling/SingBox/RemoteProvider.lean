/-
This file is about a remote provider of outbounds, which fetches a subscription and remembers
the ETag that came with it. The ETag is remembered before the content is parsed, and it is kept
when a later response has none, so it need not belong to the outbounds that were applied.
-/

import SingBox.Machine

namespace SingBox.RemoteProvider

open Machine

variable {Content Outbounds : Type}

/-- What the server has at the moment of a fetch; the empty ETag is none. A fetch may also fail
before there is an answer, or get another status. -/
inductive Server (Content : Type) where
  | serves (content : Content) (etag : String)
  | fails

/-- The provider, with the outbounds that were applied last. -/
structure ProviderRemote (Outbounds : Type) where
  lastEtag : String := ""
  lastOutOpts : Option Outbounds := none

namespace ProviderRemote

variable (parse : Content → Option Outbounds)

/-- `updateProviderFromContent`; `parse` stands for `ParseSubscription` and the filters. -/
def updateProviderFromContent (provider : ProviderRemote Outbounds) (content : Content) :
    ProviderRemote Outbounds × Bool :=
  match parse content with
  | none => (provider, false)
  | some outboundOpts => ({ provider with lastOutOpts := some outboundOpts }, true)

/-- `fetch`, and whether it returned nil. -/
def fetch (provider : ProviderRemote Outbounds) :
    Server Content → ProviderRemote Outbounds × Bool
  | .fails => (provider, false)
  | .serves content etag =>
    if provider.lastEtag ≠ "" ∧ etag = provider.lastEtag then (provider, true)
    else
      updateProviderFromContent parse
        (if etag ≠ "" then { provider with lastEtag := etag } else provider) content

def step (provider : ProviderRemote Outbounds) (server : Server Content) :
    ProviderRemote Outbounds :=
  (provider.fetch parse server).1

/-- A content that is sent has an ETag if it can be parsed, unless none is remembered, and has none
if it cannot. -/
def Orderly (provider : ProviderRemote Outbounds) : Server Content → Prop
  | .fails => True
  | .serves content etag => etag = provider.lastEtag ∨
    if (parse content).isSome then etag ≠ "" else etag = ""

instance (provider : ProviderRemote Outbounds) :
    (server : Server Content) → Decidable (provider.Orderly parse server)
  | .fails => isTrue trivial
  | .serves _ _ => inferInstanceAs (Decidable (_ ∨ _))

/-- The ETag that is remembered is that of the outbounds that were applied. -/
def Sound (contentOf : String → Content) (provider : ProviderRemote Outbounds) : Prop :=
  provider.lastEtag ≠ "" →
    parse (contentOf provider.lastEtag) = provider.lastOutOpts ∧ provider.lastOutOpts ≠ none

end ProviderRemote

open ProviderRemote

/-- An ETag belongs to one content. -/
def Server.Tagged (contentOf : String → Content) : Server Content → Prop
  | .fails => True
  | .serves content etag => etag ≠ "" → content = contentOf etag

variable {parse : Content → Option Outbounds} {contentOf : String → Content}
  {provider : ProviderRemote Outbounds} {server : Server Content}

theorem sound_step (sound : provider.Sound parse contentOf) (tagged : server.Tagged contentOf)
    (orderly : provider.Orderly parse server) :
    (provider.step parse server).Sound parse contentOf := by
  cases server with
  | fails => exact sound
  | serves content etag =>
    simp only [ProviderRemote.step, fetch]
    split_ifs with unmodified known
    · exact sound
    · -- the ETag is remembered before the content is parsed
      have same : content = contentOf etag := tagged known
      have parsed : (parse content).isSome = true := by
        rcases orderly with again | told
        · exact absurd ⟨again ▸ known, again⟩ unmodified
        · by_contra broken
          rw [if_neg broken] at told
          exact known told
      obtain ⟨outbounds, found⟩ := Option.isSome_iff_exists.mp parsed
      rw [updateProviderFromContent, found]
      exact fun _ => ⟨same ▸ found, nofun⟩
    · cases found : parse content with
      | none =>
        rw [updateProviderFromContent, found]
        exact sound
      | some outbounds =>
        -- a content that can be parsed has no ETag only while none is remembered
        rw [updateProviderFromContent, found]
        intro remembered
        rcases orderly with again | told
        · exact absurd (again.symm.trans (not_not.mp known)) remembered
        · rw [found, Option.isSome_some, if_pos rfl] at told
          exact absurd (not_not.mp known) told

/-- In every sequence of fetches in which the contents that can be parsed come with an ETag, once
one is remembered, and the others without, a fetch returns nil only if the outbounds that were
applied are those of the content of the server. -/
theorem fetch_applies (contentOf : String → Content) {servers : List (Server Content)}
    {content : Content} {etag : String}
    (tagged : ∀ server ∈ servers ++ [.serves content etag], server.Tagged contentOf)
    (orderly : Meets (step parse) (Orderly parse) ({} : ProviderRemote Outbounds) servers)
    (returned : ((drive (step parse) {} servers).fetch parse (.serves content etag)).2 = true) :
    ((drive (step parse) {} servers).fetch parse (.serves content etag)).1.lastOutOpts =
      parse content := by
  have sound := invariant_drive (Sound parse contentOf) (fun wrong => absurd rfl wrong)
    (fun _ _ sound met => sound_step sound met.2 met.1)
    (orderly.and_of_mem fun server member => tagged server (List.mem_append_left _ member))
  have current := tagged _ List.mem_concat_self
  generalize drive (step parse) {} servers = provider at *
  simp only [fetch, updateProviderFromContent, Server.Tagged] at *
  unfold Sound at sound
  grind

/-- Zero cannot be parsed. -/
def parsePositive (content : Nat) : Option Nat := if content = 0 then none else some content

theorem fetch_applies_again :
    ((drive (step parsePositive) {} [.serves 1 "a", .serves 0 "", .fails, .serves 2 "b"]).fetch
      parsePositive (.serves 1 "a")).1.lastOutOpts = parsePositive 1 :=
  fetch_applies (fun etag => if etag = "a" then 1 else 2)
    (by simp [Server.Tagged]) (by decide) (by decide)

/-- The ETag of a content that cannot be parsed is remembered, and the next fetch returns nil with
the outbounds of another content. The same happens when a content without an ETag is applied in
between. -/
theorem unparsed_unmodified :
    (drive (step parsePositive) {} [.serves 1 "a", .serves 0 "b"]).fetch parsePositive
        (.serves 0 "b") = (⟨"b", some 1⟩, true) ∧
      (drive (step parsePositive) {} [.serves 1 "a", .serves 2 ""]).fetch parsePositive
        (.serves 1 "a") = (⟨"a", some 2⟩, true) :=
  ⟨rfl, rfl⟩

end SingBox.RemoteProvider
