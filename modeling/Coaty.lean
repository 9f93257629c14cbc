import Coaty.Com.Associate
import Coaty.Com.AssociationBookkeeping
import Coaty.Com.AssociationInvariant
import Coaty.Com.CommunicationEvent
import Coaty.Com.CommunicationManager
import Coaty.Com.ContextFilters
import Coaty.Com.EventData
import Coaty.Com.IoStateEvents
import Coaty.Com.IoStates
import Coaty.Com.IoValues
import Coaty.Com.Mqtt.Binding
import Coaty.Com.Mqtt.Delivery
import Coaty.Com.Mqtt.EventDelivery
import Coaty.Com.Mqtt.Isolation
import Coaty.Com.Mqtt.IssuedKeys
import Coaty.Com.Mqtt.JoinEvents
import Coaty.Com.Mqtt.Messaging
import Coaty.Com.Mqtt.PublicationStream
import Coaty.Com.Mqtt.Publications
import Coaty.Com.Mqtt.QueueEffects
import Coaty.Com.Mqtt.Session
import Coaty.Com.Mqtt.Subscriptions
import Coaty.Com.Mqtt.Topic
import Coaty.Com.Mqtt.TopicMatching
import Coaty.Com.Mqtt.TopicRoundTrip
import Coaty.Com.Mqtt.TopicSelection
import Coaty.Com.Mqtt.TopicValidity
import Coaty.Com.Mqtt.Unjoining
import Coaty.Com.ObjectEvents
import Coaty.Com.Observables
import Coaty.Com.RequestObservables
import Coaty.Com.ResponseObservables
import Coaty.Com.Responses
import Coaty.Com.SubscriberItem
import Coaty.Controller.ObjectCache
import Coaty.Controller.ObjectLifecycle
import Coaty.Db.DocumentedIteration
import Coaty.Db.FailingIteration
import Coaty.Db.InMemory.Aggregation
import Coaty.Db.InMemory.Atomicity
import Coaty.Db.InMemory.Database
import Coaty.Db.InMemory.Find
import Coaty.Db.InMemory.Joining
import Coaty.Db.InMemory.OrderConsistency
import Coaty.Db.InMemory.Pipeline
import Coaty.Db.InMemory.Selection
import Coaty.Db.InMemory.StoreInvariant
import Coaty.Db.InMemory.Writes
import Coaty.Db.JoinConditions
import Coaty.Db.Postgres.FetchInChunks
import Coaty.Db.Postgres.FilterAgreement
import Coaty.Db.Postgres.Jsonb
import Coaty.Db.Postgres.Jsonpath
import Coaty.Db.Postgres.JsonpathReading
import Coaty.Db.Postgres.JsonpathValues
import Coaty.Db.Postgres.LikePattern
import Coaty.Db.Postgres.Placeholders
import Coaty.Db.Postgres.Pools
import Coaty.Db.Postgres.QuotedValues
import Coaty.Db.Postgres.Quoting
import Coaty.Db.Postgres.SqlCondition
import Coaty.Db.Postgres.SqlText
import Coaty.Db.Postgres.StraightPaths
import Coaty.Db.Postgres.Transactions
import Coaty.Db.Postgres.WhereClause
import Coaty.Db.Postgres.WhereParameters
import Coaty.Db.Postgres.WhereSelection
import Coaty.Db.Postgres.WhereTranslation
import Coaty.Db.QueryIteration
import Coaty.Db.SqlTag
import Coaty.Db.Sqlite.LocalStore
import Coaty.Db.Sqlite.RowIteration
import Coaty.Db.Sqlite.SqlText
import Coaty.Db.Sqlite.Stores
import Coaty.Db.Sqlite.Transactions
import Coaty.Evaluation
import Coaty.IoRouting.AbsentArrays
import Coaty.IoRouting.Agreement
import Coaty.IoRouting.EmittedValues
import Coaty.IoRouting.Evaluation
import Coaty.IoRouting.Exactness
import Coaty.IoRouting.Following
import Coaty.IoRouting.IoActorController
import Coaty.IoRouting.IoSourceController
import Coaty.IoRouting.ListedActors
import Coaty.IoRouting.PacedPublishing
import Coaty.IoRouting.Reconciliation
import Coaty.IoRouting.Routing
import Coaty.IoRouting.RuleBasedIoRouter
import Coaty.IoRouting.SentValues
import Coaty.IoRouting.SourceEntry
import Coaty.IoRouting.ValueDelivery
import Coaty.Js.Array
import Coaty.Js.Double
import Coaty.Js.Graph
import Coaty.Js.Heap
import Coaty.Js.JsonText
import Coaty.Js.Map
import Coaty.Js.Member
import Coaty.Js.MemoryValue
import Coaty.Js.NestedMap
import Coaty.Js.Number
import Coaty.Js.PlainObject
import Coaty.Js.Prototype
import Coaty.Js.RoundTrip
import Coaty.Js.SameValue
import Coaty.Js.Stringify
import Coaty.Js.Text
import Coaty.Js.Utf8
import Coaty.Js.Value
import Coaty.Lexing
import Coaty.Model.CoatyObject
import Coaty.Model.CoreTypes
import Coaty.Model.FilterEvaluation
import Coaty.Model.FilterLaws
import Coaty.Model.FilterReading
import Coaty.Model.IoNode
import Coaty.Model.IoNodeData
import Coaty.Model.LikePatterns
import Coaty.Model.ObjectFilter
import Coaty.Model.ObjectMatcher
import Coaty.Mqtt.Matching
import Coaty.Mqtt.Validity
import Coaty.Order.Between
import Coaty.Order.Insertion
import Coaty.Order.Lexicographic
import Coaty.Order.Maximum
import Coaty.Order.StableSort
import Coaty.Outbox
import Coaty.Pacing
import Coaty.Runtime.Container
import Coaty.SensorThings.SensorSource
import Coaty.SensorThings.Subscribers
import Coaty.SensorThings.ThingSensorObserver
import Coaty.Template
import Coaty.Time.Calendar
import Coaty.Time.Interval
import Coaty.Time.Iso8601
import Coaty.Transition
import Coaty.Util.BinarySearch
import Coaty.Util.Clone
import Coaty.Util.CloneGraph
import Coaty.Util.CloneHeap
import Coaty.Util.Containment
import Coaty.Util.Content
import Coaty.Util.Dates
import Coaty.Util.Deep
import Coaty.Util.Equality
import Coaty.Util.Intervals
