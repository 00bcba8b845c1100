import PropertyBoard.Http.Answer
import PropertyBoard.Migration
import PropertyBoard.Run
import PropertyBoard.Proofs.Call
import PropertyBoard.Proofs.Sql.Order
import PropertyBoard.Proofs.Statement
import PropertyBoard.Proofs.Json.Reader
import PropertyBoard.Proofs.Json.Texts
import PropertyBoard.Proofs.Service.Fields
import PropertyBoard.Proofs.Service.Properties
import PropertyBoard.Proofs.Service.Views
import PropertyBoard.Proofs.Run
import PropertyBoard.Proofs.Keys
import PropertyBoard.Proofs.Rows
import PropertyBoard.Proofs.Objects
import PropertyBoard.Proofs.Scope
import PropertyBoard.Proofs.Http.Answer
import PropertyBoard.Proofs.Json.Loose
import PropertyBoard.Proofs.Query
import PropertyBoard.Proofs.Listing
import PropertyBoard.Proofs.Lookup
import PropertyBoard.Proofs.Views
import PropertyBoard.Proofs.Posts
import PropertyBoard.Proofs.Resolve
import PropertyBoard.Proofs.ViewScope
import PropertyBoard.Proofs.Interleaving
import PropertyBoard.Proofs.Membership
import PropertyBoard.Proofs.ReadBack
import PropertyBoard.Proofs.Drawn
import PropertyBoard.Proofs.Orderly
import PropertyBoard.Proofs.Unspoilt
import PropertyBoard.Proofs.Access
import PropertyBoard.Proofs.Http.Authorized
import PropertyBoard.Proofs.Sql.Placeholders
import PropertyBoard.Proofs.Template
import PropertyBoard.Proofs.StatementText
import PropertyBoard.Proofs.Paging
import PropertyBoard.Proofs.Frame
import PropertyBoard.Proofs.SharedIdentifier
import PropertyBoard.Proofs.Json.Records
import PropertyBoard.Proofs.Sql.Like
import PropertyBoard.Proofs.Creation
import PropertyBoard.Proofs.Search
import PropertyBoard.Proofs.Json.Size
import PropertyBoard.Proofs.Conforming
import PropertyBoard.Proofs.Parsing
import PropertyBoard.Proofs.Retained
import PropertyBoard.Proofs.FieldFilter
import PropertyBoard.Proofs.Resubmitted
import PropertyBoard.Proofs.Resync
import PropertyBoard.Proofs.Migration
import PropertyBoard.Proofs.QuerySize
import PropertyBoard.Proofs.RequestedPosts
