import ContentStore.Bucket
import ContentStore.Main
import ContentStore.Proofs.Cache.Eviction
import ContentStore.Proofs.Cache.Operations
import ContentStore.Proofs.Cache.Pinned
import ContentStore.Proofs.Collector.Session
import ContentStore.Proofs.Bucket
import ContentStore.Proofs.Collector.Sparing
import ContentStore.Proofs.Cache.Contents
import ContentStore.Proofs.Store.Operations
import ContentStore.Proofs.Store.Usage
import ContentStore.Proofs.Store.InHand
import ContentStore.Proofs.Store.Integrity
import ContentStore.Proofs.Bucket.Honest
import ContentStore.Proofs.Store.Calls
import ContentStore.Proofs.Store.Durability
import ContentStore.Proofs.Cache.Words
import ContentStore.Proofs.Bucket.Truthful
import ContentStore.Proofs.Cache.Mirror
import ContentStore.Proofs.Store.Plain
import ContentStore.Proofs.Store.Transparency
import ContentStore.Proofs.Text.Utf8
import ContentStore.Proofs.Url.Percent
import ContentStore.Proofs.Url.Path
import ContentStore.Proofs.Url.Base
import ContentStore.Proofs.Client.Addressing
import ContentStore.Proofs.Text.Decimal
import ContentStore.Proofs.Markup.Tag
import ContentStore.Proofs.Markup.Tree
import ContentStore.Proofs.Markup.Spelling
import ContentStore.Proofs.Listing.Fields
import ContentStore.Proofs.Text.Blank
import ContentStore.Proofs.Listing.Objects
import ContentStore.Proofs.Listing.Documents
import ContentStore.Proofs.Text.Split
import ContentStore.Proofs.Http.Body
import ContentStore.Proofs.Client.Headers
import ContentStore.Proofs.Bucket.Regular
import ContentStore.Proofs.Client.Sending
import ContentStore.Proofs.Remote
import ContentStore.Proofs.Listing.Rendering
import ContentStore.Proofs.Client.Serving
import ContentStore.Proofs.Client.Refinement
import ContentStore.Proofs.Cache.Rounds
import ContentStore.Proofs.Cache.Budget
import ContentStore.Proofs.Cache.Tidy
import ContentStore.Proofs.Store.Agreement
import ContentStore.Proofs.Collector.History
import ContentStore.Proofs.Text.Lines
import ContentStore.Proofs.Client.Methods
import ContentStore.Proofs.CommandLine.Marks
import ContentStore.Proofs.CommandLine.Grammar
import ContentStore.Proofs.CommandLine.Collection
import ContentStore.Proofs.Cache.Recency
import ContentStore.Proofs.Cache.Victims
import ContentStore.Proofs.Store.Refusal
import ContentStore.Proofs.Bucket.Listing
import ContentStore.Proofs.Collector.Deletions
import ContentStore.Proofs.Collector.Filter
import ContentStore.Proofs.Collector.Failure
import ContentStore.Proofs.Cache.Temporary
import ContentStore.Proofs.Store.Lending
import ContentStore.Proofs.Store.FailedPut
import ContentStore.Proofs.Store.Uploads
import ContentStore.Proofs.Collector.Counters
import ContentStore.Proofs.Calendar.Civil
import ContentStore.Proofs.Calendar.Reading
import ContentStore.Proofs.Calendar.Wire
import ContentStore.Proofs.Bytes.Base64
import ContentStore.Proofs.Signing
import ContentStore.Proofs.Client.Verification
import ContentStore.Proofs.Listing.Layout
import ContentStore.Proofs.ByteSize
import ContentStore.Proofs.Stream.Writing
import ContentStore.Proofs.Stream.Copying
import ContentStore.Proofs.Markup.Run
import ContentStore.Proofs.Markup.Element
import ContentStore.Proofs.Markup.Place
import ContentStore.Proofs.Markup.Insertion
import ContentStore.Proofs.Listing.Skipping
import ContentStore.Proofs.Listing.Unknown
import ContentStore.Proofs.ByteSize.Shortest
import ContentStore.Proofs.Store.Deferral
import ContentStore.Proofs.CommandLine.Delivery
import ContentStore.Proofs.Settings.Agreement
import ContentStore.Proofs.Bytes.Hex
import ContentStore.Proofs.Fingerprint.Digests
