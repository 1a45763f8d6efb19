import WebClient.Files.Lemmas
import WebClient.Main
import WebClient.Network.Script
import WebClient.Proofs.Handover
import WebClient.Proofs.Approach
import WebClient.Proofs.Attempts
import WebClient.Proofs.Budget
import WebClient.Proofs.Referral
import WebClient.Proofs.Lines
import WebClient.Proofs.RequestHead
import WebClient.Proofs.Arrival
import WebClient.Proofs.ReadHead
import WebClient.Proofs.FieldList
import WebClient.Proofs.Folding
import WebClient.Proofs.Boundary
import WebClient.Proofs.MultipartDecode
import WebClient.Proofs.MultipartFrame
import WebClient.Proofs.Latin1
import WebClient.Proofs.BodyReading
import WebClient.Proofs.HeadRoundTrip
import WebClient.Proofs.Segmentation
import WebClient.Proofs.ShortAnswer
import WebClient.Proofs.Download
import WebClient.Proofs.JarHistory
import WebClient.Proofs.CookieDomain
import WebClient.Proofs.CookieText
import WebClient.Proofs.CookieField
import WebClient.Proofs.Conservation
import WebClient.Proofs.BodyExtent
import WebClient.Proofs.WireBytes
import WebClient.Proofs.HeadDecode
import WebClient.Proofs.Refusal
import WebClient.Proofs.RecursionLimit
import WebClient.Proofs.BodyCount
import WebClient.Proofs.Course
import WebClient.Proofs.Trail
import WebClient.Proofs.Operations
import WebClient.Proofs.RequestLog
import WebClient.Proofs.SessionCookies
import WebClient.Proofs.Accounting
import WebClient.Proofs.OneConnection
import WebClient.Proofs.Confinement
import WebClient.Proofs.Trimming
import WebClient.Proofs.Cleaning
import WebClient.Proofs.UrlParts
import WebClient.Proofs.NormalUrl
import WebClient.Proofs.RelativeReference
import WebClient.Proofs.Fragment
import WebClient.Proofs.FormDecode
import WebClient.Proofs.AddedQuery
import WebClient.Proofs.HeadLines
import WebClient.Proofs.Preamble
import WebClient.Proofs.Blocks
import WebClient.Proofs.FieldHistory
import WebClient.Proofs.FoldedSearch
import WebClient.Proofs.CookieAttributes
import WebClient.Proofs.Weekday
import WebClient.Proofs.ExpiryDate
import WebClient.Proofs.ByteOffsets
import WebClient.Proofs.Tags
import WebClient.Proofs.OffsetSearch
import WebClient.Proofs.FrameSplice
import WebClient.Proofs.AttributeReading
import WebClient.Proofs.RefreshTag
import WebClient.Proofs.DownloadedBytes
import WebClient.Proofs.GivenValues
import WebClient.Proofs.Obstacle
import WebClient.Proofs.Salvage
import WebClient.Proofs.SavedBody
