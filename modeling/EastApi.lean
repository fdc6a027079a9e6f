import EastApi.AsyncTask.Answers
import EastApi.AsyncTask.RatioOrder
import EastApi.AsyncTask.Settlement
import EastApi.Subscription.Duration
import EastApi.Subscription.Boundary
import EastApi.Subscription.Period
import EastApi.Subscription.Concurrent
import EastApi.MjProxy.Failure
import EastApi.MjProxy.Nodes
import EastApi.Billing.RefundRetry
import EastApi.Billing.Overdraw
import EastApi.Billing.Realtime
import EastApi.Billing.TextQuota
import EastApi.Account.User
import EastApi.Account.Batch
import EastApi.Account.TokenCache
import EastApi.Account.TokenSearch
import EastApi.Account.UsableGroups
import EastApi.Payment.TokenTopUp
import EastApi.Payment.Concurrent
import EastApi.Payment.OrderLock
import EastApi.OAuth.AccessPolicy
import EastApi.SecondFactor.Login
import EastApi.Channels.RoundRobin
import EastApi.Channels.ManageKeys
import EastApi.Channels.ModelSync
import EastApi.Relay.FixedGroup
import EastApi.Relay.Release
import EastApi.Relay.HeaderOverride
import EastApi.Relay.ModelMapping
import EastApi.Stream.Scanner
import EastApi.Stream.Payloads
import EastApi.Stream.Thinking
import EastApi.ClaudeStream.Content
import EastApi.ClaudeStream.WellFormed
import EastApi.Convert.ClaudeContents
import EastApi.Convert.GeminiLinks
import EastApi.Convert.GeminiStream
import EastApi.Convert.OpenAIToGemini
import EastApi.Convert.ToolReferences
import EastApi.Convert.Panics
import EastApi.Settings.Config
import EastApi.RateLimit.TokenBucket
import EastApi.Subscription.GroupRestore
