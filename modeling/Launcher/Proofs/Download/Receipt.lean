import Launcher.Download.Worker
import Launcher.Network.Fetch
import Launcher.Proofs.Digest.Blocks

/-! What a worker receives is the whole body, however it is cut into reads: all of it is written,
its size is counted, and its digest is that of the body at once. So content has one digest, whether
it is read from a stream, received by a worker or fetched as a document. -/
namespace Launcher

namespace Receipt

theorem add_nil (r : Receipt) : r.add [] = r := by
  obtain ⟨size, sha1, written⟩ := r
  cases sha1 <;> simp [add, Sha1.update]

theorem add_add (r : Receipt) (x y : Bytes) : (r.add x).add y = r.add (x ++ y) := by
  obtain ⟨size, sha1, written⟩ := r
  cases sha1 <;> simp [add, Sha1.update_append, Nat.add_assoc]

theorem ofStream_eq (entry : DownloadEntry) (body : InputStream) :
    ofStream entry body =
      ⟨body.content.length, entry.sha1.map fun _ => Sha1.initial.update body.content,
        body.content⟩ := by
  rw [ofStream, InputStream.fold_eq add_nil add_add (by decide)]
  simp [start, add, Function.comp_def]

theorem size_ofStream (entry : DownloadEntry) (body : InputStream) :
    (ofStream entry body).size = body.content.length := by
  rw [ofStream_eq]

theorem written_ofStream (entry : DownloadEntry) (body : InputStream) :
    (ofStream entry body).written = body.content := by
  rw [ofStream_eq]

theorem sha1_ofStream {entry : DownloadEntry} {expected : String}
    (declared : entry.sha1 = some expected) (body : InputStream) :
    (ofStream entry body).sha1 = some (Sha1.initial.update body.content) := by
  rw [ofStream_eq, declared, Option.map_some]

end Receipt

namespace Worker

/-- What a whole body is found to be, by its size first. -/
def verify (entry : DownloadEntry) (body : Bytes) : DownloadOutcome :=
  let file := entry.destination.text
  match entry.size with
  | some size =>
    if (body.length : Int) ≠ size.value then
      .failure (.invalidSize ⟨file, .size, size.text, toString body.length⟩)
    else verifySha1 file
  | none => verifySha1 file
where
  verifySha1 (file : String) : DownloadOutcome :=
    match entry.sha1 with
    | some expected =>
      let actual := sha1Hex body
      if actual ≠ expected then .failure (.invalidSha1 ⟨file, .sha1, expected, actual⟩)
      else .success body.length
    | none => .success body.length

/-- The reads of a body come to the same verdict as the whole of it. -/
theorem verdict_ofStream (entry : DownloadEntry) (body : InputStream) :
    (Receipt.ofStream entry body).verdict entry = verify entry body.content := by
  have digests (file : String) :
      Receipt.verdict.digestVerdict (Receipt.ofStream entry body) entry file =
        verify.verifySha1 entry body.content file := by
    unfold Receipt.verdict.digestVerdict verify.verifySha1
    rw [Receipt.ofStream_eq]
    cases entry.sha1 <;> rfl
  unfold Receipt.verdict verify
  cases entry.size with
  | none => exact digests _
  | some size => simp only [digests, Receipt.size_ofStream]

/-- A job stores its body as if it came at once. -/
theorem store_eq (w : Worker) (job : DownloadJob) (number : Nat) (body : Bytes)
    (cut : Option ConnectionFailure) :
    w.store job number body cut =
      match w.files.write job.entry.destination body with
      | .error e => w.denied job.target.origin number e
      | .ok files =>
        match cut with
        | none => (.finished (verify job.entry body), { w with files })
        | some failure =>
          match failure.fault with
          | .interrupted => (.crashed .interrupted, { w with files })
          | fault =>
            { w with files := (files.unlink job.entry.destination).toOption.getD files }.broken
              job.target.origin number fault := by
  have same := verdict_ofStream job.entry (.ofBytes body)
  rw [InputStream.content_ofBytes] at same
  unfold store
  simp only [Receipt.written_ofStream, InputStream.content_ofBytes]
  cases w.files.write job.entry.destination body with
  | error e => rfl
  | ok files =>
    cases cut with
    | none => exact congrArg (fun outcome => (JobEnd.finished outcome, { w with files })) same
    | some failure => rfl

end Worker

/-- A document that is fetched by its digest is the document that is fetched, or it is refused. -/
theorem Network.fetch_checked {network left : Network} {url : String} {headers : Members}
    {accept : Option String} {response : Response}
    (got : network.fetch url headers accept none = (.ok response, left)) (expected : String) :
    network.fetch url headers accept (some expected) =
      (if sha1Hex response.data = expected then .ok response
        else .error (.integrity ⟨url, .sha1, expected, sha1Hex response.data⟩), left) := by
  unfold Network.fetch at got ⊢
  cases read : Fetch.firstTarget url.toList with
  | error e =>
    rw [read] at got
    cases got
  | ok goal =>
    rw [read] at got
    simp only at got ⊢
    generalize Fetch.exchange url _ 64 _ [] goal network = exchanged at got ⊢
    obtain ⟨found | found, after⟩ := exchanged
    · cases got
    · cases got
      simp only
      split <;> rfl

namespace InputStream

/-- Content has one digest, that of the content as a whole. It is found through a buffer of any
length from a stream that is cut in any way; it is what a fetched document with this content must
have, and what is told of one that should have another; and it is what a worker finds while it
writes the content. -/
theorem digests_agree {content : Bytes} {s : InputStream} (cut : s.content = content)
    {bufferLength : Nat} (room : 0 < bufferLength) :
    s.sha1Hex bufferLength = Sha1.ofMessage content ∧
    (∀ (network left : Network) (url : String) (headers : Members) (accept : Option String)
      (response : Response), network.fetch url headers accept none = (.ok response, left) →
      response.data = content → ∀ expected,
      network.fetch url headers accept (some expected) =
        (if s.sha1Hex bufferLength = expected then .ok response
          else .error (.integrity ⟨url, .sha1, expected, s.sha1Hex bufferLength⟩), left)) ∧
    ∀ (entry : DownloadEntry) (expected : String), entry.sha1 = some expected →
      ∀ body : InputStream, body.content = content →
      (Receipt.ofStream entry body).written = content ∧
      (Receipt.ofStream entry body).sha1.map Sha1.hexDigest = some (s.sha1Hex bufferLength) := by
  subst cut
  have whole : s.sha1Hex bufferLength = Launcher.sha1Hex s.content := s.sha1Hex_eq room
  rw [whole]
  refine ⟨Sha1.sha1Hex_eq_ofMessage s.content, ?_, ?_⟩
  · intro network left url headers accept response got same expected
    rw [← same]
    exact Network.fetch_checked got expected
  · intro entry expected declared body same
    rw [Receipt.written_ofStream, Receipt.sha1_ofStream declared, same]
    exact ⟨rfl, rfl⟩

/-- A greeting that comes in pieces, a network that serves it, and an entry for it that declares the
digest of nothing. -/
theorem digests_agree_greeting :
    let content := Bytes.ofText "hello world!"
    let s : InputStream := [Bytes.ofText "hello ", [], Bytes.ofText "world!"]
    let digest := "430ce34d020724ed75a196dfc2ad67c77772d169"
    let declared := "da39a3ee5e6b4b0d3255bfef95601890afd80709"
    let network : Network := ⟨[("http://h/a", [.response 200 [] content none])], [], 0⟩
    let entry : DownloadEntry := ⟨"http://h/a", ⟨.relative, ["a"]⟩, none, some declared, "a"⟩
    s.content = content ∧ 0 < 5 ∧ s.sha1Hex 5 = digest ∧ Sha1.ofMessage content = digest ∧
      (network.fetch "http://h/a" [] none (some declared)).1 =
        .error (.integrity ⟨"http://h/a", .sha1, declared, digest⟩) ∧
      (Receipt.ofStream entry s).written = content ∧
      (Receipt.ofStream entry s).sha1.map Sha1.hexDigest = some digest := by
  intro content s digest declared network entry
  have cut : s.content = content := by decide +kernel
  have known : s.sha1Hex 5 = digest := by decide +kernel
  have served : network.fetch "http://h/a" [] none none =
      (.ok ⟨200, content, []⟩, (network.fetch "http://h/a" [] none none).2) :=
    Prod.ext (by decide +kernel) rfl
  have other : digest ≠ declared := by decide
  obtain ⟨whole, fetched, received⟩ := digests_agree cut (show 0 < 5 by decide)
  rw [known] at whole fetched received
  obtain ⟨written, found⟩ := received entry declared rfl s cut
  refine ⟨cut, by decide, known, whole.symm, ?_, written, found⟩
  rw [fetched _ _ _ _ _ _ served rfl, if_neg other]

end InputStream
end Launcher
